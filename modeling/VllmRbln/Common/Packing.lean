import Mathlib.Data.Nat.Basic
import Mathlib.Tactic.Ring

/-! Chunks laid out in blocks of slots, none across the end of a block: a chunk that does not fit
in what is left of its block starts the next one. -/
namespace VllmRbln.Packing

/-- Where a chunk goes that could start at `slot`. -/
def place (blockSize chunk slot : Nat) : Nat :=
  if blockSize < slot % blockSize + chunk then slot + (blockSize - slot % blockSize) else slot

/-- Slots left in the block of `slot`. -/
def room (blockSize slot : Nat) : Nat := blockSize - slot % blockSize

/-- Slots left over at block ends by `numChunks` chunks, the first block having `first` slots for
them. -/
def leftOver (blockSize chunk first numChunks : Nat) : Nat :=
  if numChunks ≤ first / chunk then 0
  else first % chunk + (numChunks - 1 - first / chunk) / (blockSize / chunk) * (blockSize % chunk)

/-- Slots left over by `n` tokens that come in chunks, full ones but for the last, from `slot`
on. -/
def skippedSlots (blockSize chunk slot n : Nat) : Nat :=
  leftOver blockSize chunk (room blockSize slot) ((n + chunk - 1) / chunk)

/-- The slot behind the last of these tokens. -/
def runEnd (blockSize chunk slot n : Nat) : Nat := slot + n + skippedSlots blockSize chunk slot n

section

variable {blockSize chunk : Nat}

theorem le_place (blockSize chunk slot : Nat) : slot ≤ place blockSize chunk slot := by
  unfold place
  split <;> omega

theorem next_block (slot : Nat) (hPos : 0 < blockSize) :
    slot + room blockSize slot = (slot / blockSize + 1) * blockSize := by
  have hSplit := Nat.div_add_mod slot blockSize
  have hOffset := Nat.mod_lt slot hPos
  unfold room
  rw [Nat.add_mul, Nat.mul_comm (slot / blockSize)]
  omega

theorem place_fits (slot : Nat) (hPos : 0 < chunk) (hFits : chunk ≤ blockSize) :
    place blockSize chunk slot % blockSize + chunk ≤ blockSize := by
  unfold place
  split
  · have hNext := next_block slot (Nat.lt_of_lt_of_le hPos hFits)
    unfold room at hNext
    rw [hNext, Nat.mul_mod_left]
    omega
  · omega

/-! ### The left-over slots, chunk by chunk -/

theorem leftOver_zero (first : Nat) : leftOver blockSize chunk first 0 = 0 := by
  simp [leftOver]

/-- From the start of a block on, every `blockSize / chunk` chunks leave the same rest. -/
theorem leftOver_fresh (hPos : 0 < chunk) (hFits : chunk ≤ blockSize) (numChunks : Nat) :
    leftOver blockSize chunk blockSize numChunks =
      (numChunks - 1) / (blockSize / chunk) * (blockSize % chunk) := by
  have hMany : 0 < blockSize / chunk := Nat.div_pos hFits hPos
  unfold leftOver
  split
  · rename_i hFew
    rw [Nat.div_eq_of_lt (by omega), Nat.zero_mul]
  · rename_i hMore
    have hSplit : numChunks - 1 = numChunks - 1 - blockSize / chunk + blockSize / chunk := by omega
    conv_rhs => rw [hSplit, Nat.add_div_right _ hMany, Nat.succ_mul]
    omega

/-- A chunk that does not fit leaves what is left of its block. -/
theorem leftOver_pad (hPos : 0 < chunk) (hFits : chunk ≤ blockSize) {first numChunks : Nat}
    (hShort : first < chunk) (hSome : 0 < numChunks) :
    leftOver blockSize chunk first numChunks =
      first + leftOver blockSize chunk blockSize numChunks := by
  rw [leftOver_fresh hPos hFits, leftOver, Nat.div_eq_of_lt hShort, Nat.mod_eq_of_lt hShort,
    if_neg (by omega), Nat.sub_zero]

/-- A chunk that fits takes its slots off the block. -/
theorem leftOver_fit (hPos : 0 < chunk) (hFits : chunk ≤ blockSize) {first numChunks : Nat}
    (hRoom : chunk ≤ first) (hSome : 0 < numChunks) :
    leftOver blockSize chunk (if chunk < first then first - chunk else blockSize) (numChunks - 1) =
      leftOver blockSize chunk first numChunks := by
  split
  · rename_i hMore
    have hDiv : first / chunk = (first - chunk) / chunk + 1 := by
      rw [Nat.div_eq first chunk, if_pos ⟨hPos, hRoom⟩]
    have hMod : (first - chunk) % chunk = first % chunk := (Nat.mod_eq_sub_mod hRoom).symm
    have hLess : numChunks - 1 - 1 - (first - chunk) / chunk =
        numChunks - 1 - first / chunk := by omega
    unfold leftOver
    rw [hMod, hLess]
    split
    · rw [if_pos (by omega)]
    · rw [if_neg (by omega)]
  · rename_i hNot
    have hEq : first = chunk := by omega
    have hOne : first / chunk = 1 := by rw [hEq, Nat.div_self hPos]
    have hNone : first % chunk = 0 := by rw [hEq, Nat.mod_self]
    rw [leftOver_fresh hPos hFits, leftOver, hOne, hNone, Nat.zero_add]
    split
    · have hLast : numChunks - 1 - 1 = 0 := by omega
      rw [hLast, Nat.zero_div, Nat.zero_mul]
    · rfl

/-! ### A run of tokens -/

theorem room_place (slot : Nat) (hPos : 0 < chunk) (hFits : chunk ≤ blockSize) :
    room blockSize (place blockSize chunk slot) =
      if room blockSize slot < chunk then blockSize else room blockSize slot := by
  have hBlock := Nat.lt_of_lt_of_le hPos hFits
  have hOffset := Nat.mod_lt slot hBlock
  unfold place
  split
  · rename_i hShort
    have hNext := next_block slot hBlock
    unfold room at hNext ⊢
    rw [hNext, Nat.mul_mod_left, if_pos (by omega), Nat.sub_zero]
  · rename_i hLong
    unfold room
    rw [if_neg (by omega)]

theorem room_behind {slot : Nat} (hPos : 0 < chunk) (hFits : slot % blockSize + chunk ≤ blockSize) :
    room blockSize (slot + chunk) =
      if chunk < room blockSize slot then room blockSize slot - chunk else blockSize := by
  unfold room
  have hSplit := Nat.div_add_mod slot blockSize
  by_cases hFull : slot % blockSize + chunk = blockSize
  · have hEnd : slot + chunk = blockSize * (slot / blockSize + 1) := by
      rw [Nat.mul_add]
      omega
    rw [hEnd, Nat.mul_mod_right, if_neg (by omega), Nat.sub_zero]
  · have hSame : (slot + chunk) % blockSize = slot % blockSize + chunk := by
      rw [← hSplit, Nat.add_assoc, Nat.mul_add_mod, Nat.mul_add_mod, Nat.mod_mod]
      exact Nat.mod_eq_of_lt (by omega)
    rw [hSame, if_pos (by omega)]
    omega

theorem runEnd_zero (slot : Nat) (hPos : 0 < chunk) : runEnd blockSize chunk slot 0 = slot := by
  have hNone : (0 + chunk - 1) / chunk = 0 := Nat.div_eq_of_lt (by omega)
  rw [runEnd, skippedSlots, hNone, leftOver_zero]
  rfl

/-- One chunk more or less: what a chunk leaves over before it and the rest of the run add up. -/
theorem runEnd_step (slot : Nat) {n : Nat} (hPos : 0 < chunk) (hFits : chunk ≤ blockSize)
    (hSome : 0 < n) :
    runEnd blockSize chunk (place blockSize chunk slot + min n chunk) (n - min n chunk) =
      runEnd blockSize chunk slot n := by
  have hBlock := Nat.lt_of_lt_of_le hPos hFits
  have hOffset := Nat.mod_lt slot hBlock
  have hChunks : (n + chunk - 1) / chunk = (n - 1) / chunk + 1 := by
    rw [← Nat.add_div_right _ hPos]
    congr 1
    omega
  have hCount : 0 < (n + chunk - 1) / chunk := hChunks ▸ Nat.succ_pos _
  -- the chunk at hand, wherever it starts
  have hPlaced : skippedSlots blockSize chunk slot n = place blockSize chunk slot - slot +
      leftOver blockSize chunk (room blockSize (place blockSize chunk slot))
        ((n + chunk - 1) / chunk) := by
    rw [room_place slot hPos hFits, skippedSlots]
    unfold place
    split
    · rename_i hShort
      have hRoom : room blockSize slot < chunk := by
        unfold room
        omega
      rw [if_pos hRoom, leftOver_pad hPos hFits hRoom hCount]
      unfold room
      omega
    · rename_i hLong
      have hRoom : ¬ room blockSize slot < chunk := by
        unfold room
        omega
      rw [if_neg hRoom]
      omega
  have hLe := le_place blockSize chunk slot
  have hIn := place_fits slot hPos hFits
  have hRoom : chunk ≤ room blockSize (place blockSize chunk slot) := by
    unfold room
    omega
  by_cases hLast : n ≤ chunk
  · have hOne : (n + chunk - 1) / chunk = 1 := by
      rw [hChunks, Nat.div_eq_of_lt (by omega)]
    have hNothing : leftOver blockSize chunk (room blockSize (place blockSize chunk slot)) 1 = 0 := by
      rw [← leftOver_fit hPos hFits hRoom Nat.one_pos]
      exact leftOver_zero _
    rw [Nat.min_eq_left hLast, Nat.sub_self, runEnd_zero _ hPos, runEnd, hPlaced, hOne, hNothing]
    omega
  · have hRest : (n - chunk + chunk - 1) / chunk = (n + chunk - 1) / chunk - 1 := by
      rw [hChunks]
      congr 1
      omega
    rw [Nat.min_eq_right (by omega), runEnd, runEnd, hPlaced, skippedSlots, room_behind hPos hIn,
      hRest, leftOver_fit hPos hFits hRoom hCount]
    omega

theorem skippedSlots_zero (slot : Nat) (hPos : 0 < chunk) :
    skippedSlots blockSize chunk slot 0 = 0 := by
  have hEnd : runEnd blockSize chunk slot 0 = slot := runEnd_zero slot hPos
  unfold runEnd at hEnd
  omega

end

end VllmRbln.Packing
