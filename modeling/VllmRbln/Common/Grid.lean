import Mathlib.Algebra.Ring.Nat
import Mathlib.Data.List.Basic
import VllmRbln.Common.Rows

/-! Row-major layouts: a list that has, for each item, blocks of one number of cells, the cells that
a choice of blocks stands for, and the place of a byte in a box of three strides. -/
namespace VllmRbln.Grid

variable {ι κ α β : Type}

def grid (items : List ι) (numBlocks : Nat) (slots : List κ) (cell : ι → Nat → κ → α) : List α :=
  items.flatMap fun item => (List.range numBlocks).flatMap fun block => slots.map (cell item block)

/-- The same with the given blocks of each item alone. -/
def chosen (items : List ι) (blocks : List Nat) (slots : List κ) (cell : ι → Nat → κ → α) : List α :=
  items.flatMap fun item => blocks.flatMap fun block => slots.map (cell item block)

/-- Where these blocks stand in the whole list. -/
def places (numItems numBlocks width : Nat) (blocks : List Nat) : List Nat :=
  (List.range numItems).flatMap fun i => blocks.flatMap fun block =>
    (List.range width).map ((i * numBlocks + block) * width + ·)

theorem length_blocks (numBlocks : Nat) (slots : List κ) (cell : Nat → κ → α) :
    ((List.range numBlocks).flatMap fun block => slots.map (cell block)).length =
      numBlocks * slots.length := by
  have hRows : ∀ row ∈ (List.range numBlocks).map (fun block => slots.map (cell block)),
      row.length = slots.length := by
    intro row hRow
    obtain ⟨block, -, rfl⟩ := List.mem_map.1 hRow
    exact List.length_map _
  rw [List.flatMap_def, Rows.flatten_length hRows, List.length_map, List.length_range]

variable {items : List ι} {numBlocks : Nat} {slots : List κ} {cell : ι → Nat → κ → α}

theorem grid_getElem? {i block s : Nat} {item : ι} {slot : κ} (hItem : items[i]? = some item)
    (hBlock : block < numBlocks) (hSlot : slots[s]? = some slot) :
    (grid items numBlocks slots cell)[(i * numBlocks + block) * slots.length + s]? =
      some (cell item block slot) := by
  have hPlace : s < slots.length := (List.getElem?_eq_some_iff.1 hSlot).1
  have hBehind : block * slots.length + s < numBlocks * slots.length := by
    have hNext : (block + 1) * slots.length ≤ numBlocks * slots.length :=
      Nat.mul_le_mul_right _ hBlock
    rw [Nat.succ_mul] at hNext
    omega
  have hSplit : (i * numBlocks + block) * slots.length + s =
      i * (numBlocks * slots.length) + (block * slots.length + s) := by
    rw [Nat.add_mul, Nat.mul_assoc, Nat.add_assoc]
  have hItems : ∀ row ∈ items.map (fun item => (List.range numBlocks).flatMap fun block =>
      slots.map (cell item block)), row.length = numBlocks * slots.length := by
    intro row hRow
    obtain ⟨item, -, rfl⟩ := List.mem_map.1 hRow
    exact length_blocks numBlocks slots (cell item)
  have hBlocks : ∀ row ∈ (List.range numBlocks).map (fun block => slots.map (cell item block)),
      row.length = slots.length := by
    intro row hRow
    obtain ⟨block, -, rfl⟩ := List.mem_map.1 hRow
    exact List.length_map _
  have hItemAt : (items.map fun item => (List.range numBlocks).flatMap fun block =>
      slots.map (cell item block))[i]? = some ((List.range numBlocks).flatMap fun block =>
        slots.map (cell item block)) := by
    rw [List.getElem?_map, hItem]
    rfl
  have hBlockAt : ((List.range numBlocks).map fun block => slots.map (cell item block))[block]? =
      some (slots.map (cell item block)) := by
    rw [List.getElem?_map, List.getElem?_range hBlock]
    rfl
  rw [grid, List.flatMap_def, hSplit, Rows.flatten_getElem? hItems hItemAt hBehind, List.flatMap_def,
    Rows.flatten_getElem? hBlocks hBlockAt hPlace, List.getElem?_map, hSlot]
  rfl

theorem mapM_eq_some {run : α → Option β} {items : List α} {values : List β}
    (hMap : items.map run = values.map some) : items.mapM run = some values := by
  induction items generalizing values with
  | nil =>
      have hNil : values = [] := List.map_eq_nil_iff.1 hMap.symm
      rw [hNil]
      rfl
  | cons item items ih =>
      cases values with
      | nil => cases hMap
      | cons value values =>
          obtain ⟨hHead, hTail⟩ := List.cons.inj hMap
          rw [List.mapM_cons, hHead, ih hTail]
          rfl

theorem mapM_places {blocks : List Nat} (hBlocks : ∀ block ∈ blocks, block < numBlocks) :
    (places items.length numBlocks slots.length blocks).mapM
      ((grid items numBlocks slots cell)[·]?) = some (chosen items blocks slots cell) := by
  apply mapM_eq_some
  have hCells : ∀ i item, items[i]? = some item → ∀ block ∈ blocks,
      ((List.range slots.length).map fun s =>
        (grid items numBlocks slots cell)[(i * numBlocks + block) * slots.length + s]?) =
      (slots.map (cell item block)).map some := by
    intro i item hItem block hBlock
    apply List.ext_getElem
    · simp only [List.length_map, List.length_range]
    · intro s hLeft hRight
      have hPlace : s < slots.length := by
        simpa only [List.length_map, List.length_range] using hLeft
      rw [List.getElem_map, List.getElem_map, List.getElem_map, List.getElem_range,
        grid_getElem? hItem (hBlocks block hBlock) (List.getElem?_eq_getElem hPlace)]
  have hItems : ∀ i item, items[i]? = some item →
      (blocks.flatMap fun block => (List.range slots.length).map fun s =>
        (grid items numBlocks slots cell)[(i * numBlocks + block) * slots.length + s]?) =
      (blocks.flatMap fun block => slots.map (cell item block)).map some := by
    intro i item hItem
    rw [List.map_flatMap]
    exact List.flatMap_congr fun block hBlock => hCells i item hItem block hBlock
  have hRows : (List.range items.length).map (fun i => blocks.flatMap fun block =>
      (List.range slots.length).map fun s =>
        (grid items numBlocks slots cell)[(i * numBlocks + block) * slots.length + s]?) =
      items.map fun item => (blocks.flatMap fun block => slots.map (cell item block)).map some := by
    apply List.ext_getElem
    · rw [List.length_map, List.length_map, List.length_range]
    · intro i _ hItem
      rw [List.length_map] at hItem
      rw [List.getElem_map, List.getElem_map, List.getElem_range]
      exact hItems i _ (List.getElem?_eq_getElem hItem)
  rw [places, chosen, List.map_flatMap, List.map_flatMap, List.flatMap_def, List.flatMap_def,
    ← hRows]
  congr 1
  apply List.map_congr_left
  intro i _
  rw [List.map_flatMap]
  apply List.flatMap_congr
  intro block _
  rw [List.map_map]
  rfl

/-- Lists laid out alike pair part by part. -/
theorem zip_flatMap {γ δ : Type} {f : α → List γ} {g : β → List δ} {n : Nat}
    (hF : ∀ a, (f a).length = n) (hG : ∀ b, (g b).length = n) {xs : List α} {ys : List β}
    (hLength : xs.length = ys.length) :
    (xs.flatMap f).zip (ys.flatMap g) =
      (xs.zip ys).flatMap fun pair => (f pair.1).zip (g pair.2) := by
  induction xs generalizing ys with
  | nil => rfl
  | cons x xs ih =>
      cases ys with
      | nil => cases hLength
      | cons y ys =>
          rw [List.flatMap_cons, List.flatMap_cons, List.zip_append ((hF x).trans (hG y).symm),
            ih (Nat.succ.inj hLength), List.zip_cons_cons, List.flatMap_cons]

theorem chosen_length (items : List ι) (blocks : List Nat) (slots : List κ)
    (cell : ι → Nat → κ → α) :
    (chosen items blocks slots cell).length = items.length * (blocks.length * slots.length) := by
  have hRow : ∀ item, (blocks.flatMap fun block => slots.map (cell item block)).length =
      blocks.length * slots.length := by
    intro item
    induction blocks with
    | nil => rw [List.length_nil, Nat.zero_mul]; rfl
    | cons block blocks ih =>
        rw [List.flatMap_cons, List.length_append, ih, List.length_map, List.length_cons,
          Nat.succ_mul, Nat.add_comm]
  induction items with
  | nil => rw [List.length_nil, Nat.zero_mul]; rfl
  | cons item items ih =>
      rw [chosen] at ih
      rw [chosen, List.flatMap_cons, List.length_append, ih, hRow, List.length_cons, Nat.succ_mul,
        Nat.add_comm]

/-- Two choices of blocks are paired item by item, block by block and slot by slot. -/
theorem mem_zip_chosen {blocks others : List Nat} {other : ι → Nat → κ → β}
    (hLength : blocks.length = others.length) {a : α} {b : β} :
    (a, b) ∈ (chosen items blocks slots cell).zip (chosen items others slots other) ↔
      ∃ item ∈ items, ∃ pair ∈ blocks.zip others, ∃ slot ∈ slots,
        a = cell item pair.1 slot ∧ b = other item pair.2 slot := by
  have hSlots : ∀ (f : κ → α) (g : κ → β),
      (slots.map f).zip (slots.map g) = slots.map fun slot => (f slot, g slot) := by
    intro f g
    rw [List.zip_map']
  have hRows : ∀ item,
      (blocks.flatMap fun block => slots.map (cell item block)).zip
        (others.flatMap fun block => slots.map (other item block)) =
      (blocks.zip others).flatMap fun pair =>
        slots.map fun slot => (cell item pair.1 slot, other item pair.2 slot) := by
    intro item
    rw [zip_flatMap (fun _ => List.length_map _) (fun _ => List.length_map _) hLength]
    exact List.flatMap_congr fun pair _ => hSlots _ _
  have hZip : (chosen items blocks slots cell).zip (chosen items others slots other) =
      items.flatMap fun item => (blocks.zip others).flatMap fun pair =>
        slots.map fun slot => (cell item pair.1 slot, other item pair.2 slot) := by
    have hOne : ∀ item, (blocks.flatMap fun block => slots.map (cell item block)).length =
        (others.flatMap fun block => slots.map (other item block)).length := by
      intro item
      have hLeft := chosen_length [item] blocks slots cell
      have hRight := chosen_length [item] others slots other
      rw [chosen, List.flatMap_singleton] at hLeft hRight
      rw [hLeft, hRight, hLength]
    rw [chosen, chosen]
    induction items with
    | nil => rfl
    | cons item items ih =>
        rw [List.flatMap_cons, List.flatMap_cons, List.zip_append (hOne item), hRows, ih,
          List.flatMap_cons]
  rw [hZip]
  simp only [List.mem_flatMap, List.mem_map, Prod.mk.injEq]
  constructor
  · rintro ⟨item, hItem, pair, hPair, slot, hSlot, rfl, rfl⟩
    exact ⟨item, hItem, pair, hPair, slot, hSlot, rfl, rfl⟩
  · rintro ⟨item, hItem, pair, hPair, slot, hSlot, rfl, rfl⟩
    exact ⟨item, hItem, pair, hPair, slot, hSlot, rfl, rfl⟩

/-! ### Bytes of a box -/

theorem rowMajor_lt {numRows width row column : Nat} (hRow : row < numRows)
    (hColumn : column < width) : row * width + column < numRows * width := by
  have hNext : (row + 1) * width ≤ numRows * width := Nat.mul_le_mul_right _ hRow
  rw [Nat.succ_mul] at hNext
  omega

theorem rowMajor_inj {width row column row' column' : Nat} (hColumn : column < width)
    (hColumn' : column' < width) (hSame : row * width + column = row' * width + column') :
    row = row' ∧ column = column' := by
  rcases Nat.lt_trichotomy row row' with hLt | rfl | hGt
  · have hBefore := rowMajor_lt hLt hColumn
    omega
  · exact ⟨rfl, by omega⟩
  · have hBefore := rowMajor_lt hGt hColumn'
    omega

theorem rowMajor_div {width row column : Nat} (hColumn : column < width) :
    (row * width + column) / width = row := by
  rw [Nat.mul_comm, Nat.mul_add_div (Nat.lt_of_le_of_lt (Nat.zero_le _) hColumn),
    Nat.div_eq_of_lt hColumn, Nat.add_zero]

theorem exists_rowMajor {numRows width place : Nat} (hPlace : place < numRows * width) :
    ∃ row < numRows, ∃ column < width, row * width + column = place := by
  have hWidth : 0 < width := Nat.pos_of_mul_pos_left (Nat.lt_of_le_of_lt (Nat.zero_le _) hPlace)
  have hRow : place / width < numRows := (Nat.div_lt_iff_lt_mul hWidth).2 hPlace
  have hColumn : place % width < width := Nat.mod_lt _ hWidth
  have hBack : place / width * width + place % width = place := Nat.div_add_mod' place width
  exact ⟨_, hRow, _, hColumn, hBack⟩

/-- A byte of one entry, in a row of `width` entries of `bytes` bytes. -/
def offset (width bytes row entry byte : Nat) : Nat :=
  row * (width * bytes) + (entry * bytes + byte)

variable {numRows width bytes row entry byte row' entry' byte' : Nat}

theorem offset_lt (hRow : row < numRows) (hEntry : entry < width) (hByte : byte < bytes) :
    offset width bytes row entry byte < numRows * (width * bytes) :=
  rowMajor_lt hRow (rowMajor_lt hEntry hByte)

theorem offset_inj (hEntry : entry < width) (hByte : byte < bytes) (hEntry' : entry' < width)
    (hByte' : byte' < bytes)
    (hSame : offset width bytes row entry byte = offset width bytes row' entry' byte') :
    row = row' ∧ entry = entry' ∧ byte = byte' := by
  have hRows := rowMajor_inj (rowMajor_lt hEntry hByte) (rowMajor_lt hEntry' hByte') hSame
  exact ⟨hRows.1, rowMajor_inj hByte hByte' hRows.2⟩

theorem exists_offset {place : Nat} (hPlace : place < numRows * (width * bytes)) :
    ∃ row < numRows, ∃ entry < width, ∃ byte < bytes,
      offset width bytes row entry byte = place := by
  obtain ⟨row, hRow, column, hColumn, rfl⟩ := exists_rowMajor hPlace
  obtain ⟨entry, hEntry, byte, hByte, rfl⟩ := exists_rowMajor hColumn
  exact ⟨row, hRow, entry, hEntry, byte, hByte, rfl⟩

end VllmRbln.Grid
