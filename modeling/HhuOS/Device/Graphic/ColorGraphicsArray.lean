import Mathlib.Logic.Function.Basic
import Mathlib.Algebra.Group.Nat.Basic

/-!
# The CGA text-mode driver

`Device::Graphic::ColorGraphicsArray` writes characters into the CGA window, mapped at
construction as `2 · rows · columns` bytes: cell `(r, c)` is the character byte at offset
`2 · (r · columns + c)` and the attribute byte after it. `putChar` writes at the cursor and
advances it, wraps at the last column and scrolls at the last row; `scrollUp` copies the window
one row up and blanks the last row; `clear` runs when the driver is created; `setPosition` moves
the cursor; `updateCursorPosition` sends the cursor to the CRT controller.

Memory is a function from offsets (from the start of the window) to bytes, so that a write outside
the window would be visible. The `Util::Memory::Address` operations the driver uses are not in the
sources; `setShort` stores little-endian and `copyRange` copies byte by byte upwards.
-/

namespace HhuOS

namespace ColorGraphicsArray

/-! ## Memory operations -/

/-- `Address::setByte`. -/
def setByte (memory : Nat → UInt8) (offset : Nat) (value : UInt8) : Nat → UInt8 :=
  Function.update memory offset value

/-- `Address::setShort`, little-endian. -/
def setShort (memory : Nat → UInt8) (offset : Nat) (value : UInt16) : Nat → UInt8 :=
  setByte (setByte memory offset value.toUInt8) (offset + 1) (value >>> 8).toUInt8

/-- `Address::copyRange` from `source` to `target`: `length` bytes, one at a time upwards. -/
def copyRange (memory : Nat → UInt8) (target source : Nat) : Nat → Nat → UInt8
  | 0 => memory
  | length + 1 => copyRange (setByte memory target (memory source)) (target + 1) (source + 1) length

/-- The loops of `clear` and `scrollUp`: `setShort(value)` at `offset i` for `i < count`. -/
def setShorts (memory : Nat → UInt8) (offset : Nat → Nat) (value : UInt16) : Nat → Nat → UInt8
  | 0 => memory
  | i + 1 => setShort (setShorts memory offset value i) (offset i) value

/-! ## The driver -/

/-- The byte `putChar` writes for `'\n'`, a blank. -/
def blank : UInt8 := 32

/-- The byte of `'\n'`. -/
def newline : UInt8 := 10

/-- The value `clear` and `scrollUp` write into each cell. -/
def clearValue : UInt16 := 0x000f

/-- The driver: the geometry, the cursor, the memory, and the last position sent to the CRT
controller. -/
structure State where
  columns : Nat
  rows : Nat
  currentColumn : Nat
  currentRow : Nat
  memory : Nat → UInt8
  cursorPosition : Nat

/-- `ColorGraphicsArray::updateCursorPosition`: the `uint16_t` position of the cursor cell, sent
to the CRT controller as a high and a low byte. -/
def updateCursorPosition (s : State) : State :=
  { s with cursorPosition := (s.currentRow * s.columns + s.currentColumn) % 2 ^ 16 }

/-- `ColorGraphicsArray::scrollUp`: copy rows `1 ..` one row up, then blank the last row. -/
def scrollUp (s : State) : State :=
  let memory := copyRange s.memory 0 (s.columns * 2) (s.columns * (s.rows - 1) * 2)
  let clear := fun i => s.columns * (s.rows - 1) * 2 + i * 2
  { s with memory := setShorts memory clear clearValue s.columns }

/-- `ColorGraphicsArray::putChar`. The offset is computed as a `uint16_t`. -/
def putChar (s : State) (c foregroundColor backgroundColor : UInt8) : State :=
  let position := (s.currentRow * s.columns + s.currentColumn) * 2 % 2 ^ 16
  let colorAttribute := (backgroundColor <<< 4) ||| foregroundColor
  let s := if c = newline then
      { s with memory := setByte (setByte s.memory position blank) (position + 1) 0,
               currentRow := s.currentRow + 1, currentColumn := 0 }
    else
      { s with memory := setByte (setByte s.memory position c) (position + 1) colorAttribute,
               currentColumn := s.currentColumn + 1 }
  let s := if s.columns ≤ s.currentColumn then
      { s with currentRow := s.currentRow + 1, currentColumn := 0 } else s
  let s := if s.rows ≤ s.currentRow then
      { scrollUp s with currentColumn := 0, currentRow := s.rows - 1 } else s
  updateCursorPosition s

/-- `ColorGraphicsArray::clear`: `rows · columns` times `setShort(0x000f)`, every time at the
start of the window; then the cursor goes to `(0, 0)`. -/
def clear (s : State) : State :=
  updateCursorPosition
    { s with memory := setShorts s.memory (fun _ => 0) clearValue (s.rows * s.columns),
             currentRow := 0, currentColumn := 0 }

/-- `ColorGraphicsArray::setPosition`. -/
def setPosition (s : State) (column row : Nat) : State :=
  { s with currentColumn := column, currentRow := row }

/-- `ColorGraphicsArray::ColorGraphicsArray`: the window over `memory`, then `clear`. -/
def create (columns rows : Nat) (memory : Nat → UInt8) : State :=
  clear ⟨columns, rows, 0, 0, memory, 0⟩

/-- A call on the driver. -/
inductive Op where
  | putChar (c foregroundColor backgroundColor : UInt8)
  | clear
  | setPosition (column row : Nat)

namespace Op

/-- Runs a call. -/
def apply (s : State) : Op → State
  | putChar c foregroundColor backgroundColor =>
    ColorGraphicsArray.putChar s c foregroundColor backgroundColor
  | clear => ColorGraphicsArray.clear s
  | setPosition column row => ColorGraphicsArray.setPosition s column row

/-- `setPosition` is called with a position on the screen. -/
def Valid (columns rows : Nat) : Op → Prop
  | setPosition column row => column < columns ∧ row < rows
  | putChar .. | clear => True

end Op

/-- Runs calls one after another. -/
def run (s : State) (ops : List Op) : State := ops.foldl Op.apply s

/-! ## The three steps of `putChar` -/

/-- The first block of `putChar`: write the cell and move the cursor. -/
def writeCell (s : State) (c foregroundColor backgroundColor : UInt8) : State :=
  let position := (s.currentRow * s.columns + s.currentColumn) * 2 % 2 ^ 16
  let colorAttribute := (backgroundColor <<< 4) ||| foregroundColor
  if c = newline then
    { s with memory := setByte (setByte s.memory position blank) (position + 1) 0,
             currentRow := s.currentRow + 1, currentColumn := 0 }
  else
    { s with memory := setByte (setByte s.memory position c) (position + 1) colorAttribute,
             currentColumn := s.currentColumn + 1 }

/-- The second block: wrap at the last column. -/
def wrapLine (s : State) : State :=
  if s.columns ≤ s.currentColumn then { s with currentRow := s.currentRow + 1, currentColumn := 0 }
  else s

/-- The third block: scroll below the last row. -/
def scrollPastEnd (s : State) : State :=
  if s.rows ≤ s.currentRow then { scrollUp s with currentColumn := 0, currentRow := s.rows - 1 }
  else s

/-- `putChar` is its four stages in order. -/
lemma putChar_eq (s : State) (c foregroundColor backgroundColor : UInt8) :
    putChar s c foregroundColor backgroundColor =
      updateCursorPosition (scrollPastEnd (wrapLine (writeCell s c foregroundColor backgroundColor))) :=
  rfl

/-- Moving the hardware cursor keeps the width. -/
@[simp] lemma updateCursorPosition_columns (s : State) : (updateCursorPosition s).columns = s.columns := rfl
/-- Moving the hardware cursor keeps the height. -/
@[simp] lemma updateCursorPosition_rows (s : State) : (updateCursorPosition s).rows = s.rows := rfl
/-- Moving the hardware cursor writes no video memory. -/
@[simp] lemma updateCursorPosition_memory (s : State) : (updateCursorPosition s).memory = s.memory := rfl
/-- Moving the hardware cursor keeps the row. -/
@[simp] lemma updateCursorPosition_currentRow (s : State) :
    (updateCursorPosition s).currentRow = s.currentRow := rfl
/-- Moving the hardware cursor keeps the column. -/
@[simp] lemma updateCursorPosition_currentColumn (s : State) :
    (updateCursorPosition s).currentColumn = s.currentColumn := rfl
/-- Scrolling keeps the width. -/
@[simp] lemma scrollUp_columns (s : State) : (scrollUp s).columns = s.columns := rfl
/-- Scrolling keeps the height. -/
@[simp] lemma scrollUp_rows (s : State) : (scrollUp s).rows = s.rows := rfl

/-- Writing a cell keeps the size of the screen. -/
lemma writeCell_geometry (s : State) (c f b : UInt8) :
    (writeCell s c f b).columns = s.columns ∧ (writeCell s c f b).rows = s.rows := by
  unfold writeCell; split_ifs <;> simp

/-- Wrapping the line keeps the size of the screen. -/
lemma wrapLine_geometry (s : State) : (wrapLine s).columns = s.columns ∧ (wrapLine s).rows = s.rows := by
  unfold wrapLine; split_ifs <;> simp

/-- Scrolling past the end keeps the size of the screen. -/
lemma scrollPastEnd_geometry (s : State) :
    (scrollPastEnd s).columns = s.columns ∧ (scrollPastEnd s).rows = s.rows := by
  unfold scrollPastEnd; split_ifs <;> simp

/-! ## Memory lemmas -/

/-- A written byte reads back, and every other byte is unchanged. -/
lemma setByte_apply (memory : Nat → UInt8) (offset : Nat) (value : UInt8) (off : Nat) :
    setByte memory offset value off = if off = offset then value else memory off :=
  Function.update_apply memory offset value off

/-- `copyRange` writes only `[target, target + length)`. -/
lemma copyRange_of_not_mem {memory : Nat → UInt8} {target source length off : Nat}
    (h : off < target ∨ target + length ≤ off) :
    copyRange memory target source length off = memory off := by
  induction length generalizing memory target source with
  | zero => rfl
  | succ length ih =>
    rw [copyRange, ih (by omega), setByte_apply, if_neg (by omega)]

/-- `setShorts` writes only the two bytes at each `offset i`. -/
lemma setShorts_of_ne {memory : Nat → UInt8} {offset : Nat → Nat} {value : UInt16} {count off : Nat}
    (h : ∀ i < count, off ≠ offset i ∧ off ≠ offset i + 1) :
    setShorts memory offset value count off = memory off := by
  induction count with
  | zero => rfl
  | succ count ih =>
    have hi := h count (Nat.lt_succ_self count)
    rw [setShorts, setShort, setByte_apply, if_neg hi.2, setByte_apply, if_neg hi.1,
      ih fun i hi' => h i (Nat.lt_succ_of_lt hi')]

/-- Two memories that agree on the first `n` bytes. -/
def AgreeBelow (n : Nat) (m₁ m₂ : Nat → UInt8) : Prop := ∀ off < n, m₁ off = m₂ off

/-- The same byte write keeps two memories that agree below `n` agreeing. -/
lemma AgreeBelow.setByte {n : Nat} {m₁ m₂ : Nat → UInt8} (h : AgreeBelow n m₁ m₂) (offset : Nat)
    (value : UInt8) : AgreeBelow n (setByte m₁ offset value) (setByte m₂ offset value) := by
  intro off hoff
  simp only [setByte_apply, h off hoff]

/-- The same fill keeps two memories that agree below `n` agreeing. -/
lemma AgreeBelow.setShorts {n : Nat} {m₁ m₂ : Nat → UInt8} (h : AgreeBelow n m₁ m₂)
    (offset : Nat → Nat) (value : UInt16) (count : Nat) :
    AgreeBelow n (setShorts m₁ offset value count) (setShorts m₂ offset value count) := by
  induction count with
  | zero => exact h
  | succ count ih => exact (ih.setByte _ _).setByte _ _

/-- `copyRange` reads only `[source, source + length)`. -/
lemma AgreeBelow.copyRange {n : Nat} {m₁ m₂ : Nat → UInt8} (h : AgreeBelow n m₁ m₂)
    {target source length : Nat} (hs : source + length ≤ n) :
    AgreeBelow n (copyRange m₁ target source length) (copyRange m₂ target source length) := by
  induction length generalizing m₁ m₂ target source with
  | zero => exact h
  | succ length ih =>
    rw [ColorGraphicsArray.copyRange, ColorGraphicsArray.copyRange, h source (by omega)]
    exact ih (h.setByte _ _) (by omega)

/-! ## The cursor stays on the screen -/

/-- The geometries covered: at least one row and one column, and a window of at most `2^16`
bytes, the span of the `uint16_t` offset. -/
structure Geometry (columns rows : Nat) : Prop where
  rows_pos : 1 ≤ rows
  columns_pos : 1 ≤ columns
  window_le : 2 * (rows * columns) ≤ 2 ^ 16

/-- The cursor, and the position last sent to the CRT controller, are on the screen. -/
structure OnScreen (s : State) : Prop where
  row_lt : s.currentRow < s.rows
  column_lt : s.currentColumn < s.columns
  cursor_lt : s.cursorPosition < s.rows * s.columns

/-- A cell on the screen has an index below the number of cells. -/
lemma cell_lt {r c rows columns : Nat} (hr : r < rows) (hc : c < columns) :
    r * columns + c < rows * columns :=
  calc r * columns + c < (r + 1) * columns := by rw [Nat.succ_mul]; omega
    _ ≤ rows * columns := Nat.mul_le_mul_right _ hr

/-- The last row ends where the window ends. -/
lemma lastRow_add {columns rows : Nat} (h : 1 ≤ rows) :
    columns * (rows - 1) * 2 + columns * 2 = 2 * (rows * columns) := by
  obtain ⟨k, rfl⟩ : ∃ k, rows = k + 1 := ⟨rows - 1, by omega⟩
  rw [Nat.add_sub_cancel, Nat.add_mul, Nat.one_mul, Nat.mul_comm columns k]; omega

/-- A cursor on the screen stays there when the hardware cursor moves. -/
lemma updateCursorPosition_onScreen {s : State} (hg : Geometry s.columns s.rows)
    (hr : s.currentRow < s.rows) (hc : s.currentColumn < s.columns) :
    OnScreen (updateCursorPosition s) := by
  have hcell := cell_lt hr hc
  have hw := hg.window_le
  refine ⟨hr, hc, ?_⟩
  simp only [updateCursorPosition]
  rw [Nat.mod_eq_of_lt (by omega)]
  exact hcell

/-- After writing a cell the cursor is at most one column past the end of a row on the screen. -/
lemma writeCell_cursor {s : State} (h : OnScreen s) (c f b : UInt8) :
    (writeCell s c f b).currentRow ≤ s.rows ∧ (writeCell s c f b).currentColumn ≤ s.columns ∧
      (s.columns ≤ (writeCell s c f b).currentColumn → (writeCell s c f b).currentRow < s.rows) := by
  have := h.row_lt; have := h.column_lt
  unfold writeCell; split_ifs <;> simp <;> omega

/-- After wrapping, the cursor is in a column of the screen, at most one row below it. -/
lemma wrapLine_cursor {s : State} (hc : 1 ≤ s.columns) (hr : s.currentRow ≤ s.rows)
    (hcol : s.currentColumn ≤ s.columns) (hwrap : s.columns ≤ s.currentColumn → s.currentRow < s.rows) :
    (wrapLine s).currentRow ≤ s.rows ∧ (wrapLine s).currentColumn < s.columns := by
  unfold wrapLine
  split_ifs
  · simp; omega
  · omega

/-- After scrolling past the end, the cursor is on the screen. -/
lemma scrollPastEnd_cursor {s : State} (hg : 1 ≤ s.rows) (hr : s.currentRow ≤ s.rows)
    (hc : s.currentColumn < s.columns) :
    (scrollPastEnd s).currentRow < s.rows ∧ (scrollPastEnd s).currentColumn < s.columns := by
  unfold scrollPastEnd
  split_ifs
  · simp; omega
  · omega

/-- `putChar` keeps the cursor on the screen. -/
theorem putChar_onScreen {s : State} (hg : Geometry s.columns s.rows) (h : OnScreen s)
    (c f b : UInt8) : OnScreen (putChar s c f b) := by
  obtain ⟨hc₁, hr₁⟩ := writeCell_geometry s c f b
  obtain ⟨hc₂, hr₂⟩ := wrapLine_geometry (writeCell s c f b)
  obtain ⟨hc₃, hr₃⟩ := scrollPastEnd_geometry (wrapLine (writeCell s c f b))
  obtain ⟨hw₁, hw₂, hw₃⟩ := writeCell_cursor h c f b
  obtain ⟨hl₁, hl₂⟩ := wrapLine_cursor (hc₁ ▸ hg.columns_pos) (by omega) (by omega) (by omega)
  obtain ⟨hs₁, hs₂⟩ := scrollPastEnd_cursor (by rw [hr₂, hr₁]; exact hg.rows_pos) (by omega)
    (by omega)
  rw [putChar_eq]
  exact updateCursorPosition_onScreen (by rwa [hc₃, hc₂, hc₁, hr₃, hr₂, hr₁]) (by omega) (by omega)

/-! ## Every write lies in the window -/

/-- The size of the window. -/
def window (s : State) : Nat := 2 * (s.rows * s.columns)

/-- `scrollUp` writes only inside the window. -/
lemma scrollUp_memory_of_le {s : State} (hg : 1 ≤ s.rows) {off : Nat} (hoff : window s ≤ off) :
    (scrollUp s).memory off = s.memory off := by
  have hl := @lastRow_add s.columns _ hg
  unfold window at hoff
  simp only [scrollUp]
  rw [setShorts_of_ne fun i hi => by constructor <;> omega, copyRange_of_not_mem (by omega)]

/-- `putChar` writes only inside the window. -/
theorem putChar_memory_of_le {s : State} (hg : Geometry s.columns s.rows) (h : OnScreen s)
    (c f b : UInt8) {off : Nat} (hoff : window s ≤ off) :
    (putChar s c f b).memory off = s.memory off := by
  have hcell := cell_lt h.row_lt h.column_lt
  have hw := hg.window_le
  unfold window at hoff
  have hpos : (s.currentRow * s.columns + s.currentColumn) * 2 % 2 ^ 16 =
      (s.currentRow * s.columns + s.currentColumn) * 2 := Nat.mod_eq_of_lt (by omega)
  have hwrite : (writeCell s c f b).memory off = s.memory off := by
    unfold writeCell; split_ifs <;> simp only [hpos, setByte_apply] <;> rw [if_neg (by omega),
      if_neg (by omega)]
  obtain ⟨hc₁, hr₁⟩ := writeCell_geometry s c f b
  obtain ⟨hc₂, hr₂⟩ := wrapLine_geometry (writeCell s c f b)
  have hwrap : (wrapLine (writeCell s c f b)).memory = (writeCell s c f b).memory := by
    unfold wrapLine; split_ifs <;> rfl
  rw [putChar_eq, updateCursorPosition_memory]
  unfold scrollPastEnd
  split_ifs
  · rw [scrollUp_memory_of_le (by rw [hr₂, hr₁]; exact hg.rows_pos)
      (by unfold window; rwa [hr₂, hr₁, hc₂, hc₁]), hwrap, hwrite]
  · rw [hwrap, hwrite]

/-! ## Every read lies in the window -/

/-- Two driver states with the same geometry and cursor whose memories agree on the window. -/
structure Twin (s₁ s₂ : State) : Prop where
  columns : s₁.columns = s₂.columns
  rows : s₁.rows = s₂.rows
  currentColumn : s₁.currentColumn = s₂.currentColumn
  currentRow : s₁.currentRow = s₂.currentRow
  cursorPosition : s₁.cursorPosition = s₂.cursorPosition
  window : AgreeBelow (window s₁) s₁.memory s₂.memory

/-- Twins differ at most in their memory. -/
lemma Twin.eq {s₁ s₂ : State} (h : Twin s₁ s₂) : s₂ = { s₁ with memory := s₂.memory } := by
  obtain ⟨hc, hr, hx, hy, hp, -⟩ := h
  cases s₁; cases s₂; simp_all

/-- A state is the twin of itself with a memory that agrees on the window. -/
lemma twin_withMemory {s : State} {m : Nat → UInt8} (h : AgreeBelow (window s) s.memory m) :
    Twin s { s with memory := m } :=
  ⟨rfl, rfl, rfl, rfl, rfl, h⟩

/-- Moving the hardware cursor keeps twins twins. -/
lemma Twin.updateCursorPosition {s₁ s₂ : State} (h : Twin s₁ s₂) :
    Twin (updateCursorPosition s₁) (updateCursorPosition s₂) := by
  rw [h.eq]; exact twin_withMemory h.window

/-- Writing the same cell keeps twins twins. -/
lemma Twin.writeCell {s₁ s₂ : State} (h : Twin s₁ s₂) (c f b : UInt8) :
    Twin (writeCell s₁ c f b) (writeCell s₂ c f b) := by
  rw [h.eq]
  have hw := h.window
  unfold ColorGraphicsArray.writeCell
  split_ifs <;> exact ⟨rfl, rfl, rfl, rfl, rfl, (hw.setByte _ _).setByte _ _⟩

/-- Wrapping the line keeps twins twins. -/
lemma Twin.wrapLine {s₁ s₂ : State} (h : Twin s₁ s₂) : Twin (wrapLine s₁) (wrapLine s₂) := by
  rw [h.eq]
  have hw := h.window
  unfold ColorGraphicsArray.wrapLine
  split_ifs <;> exact ⟨rfl, rfl, rfl, rfl, rfl, hw⟩

/-- `scrollUp` reads only inside the window. -/
lemma Twin.scrollPastEnd {s₁ s₂ : State} (hg : 1 ≤ s₁.rows) (h : Twin s₁ s₂) :
    Twin (scrollPastEnd s₁) (scrollPastEnd s₂) := by
  rw [h.eq]
  have hw := h.window
  have hl := @lastRow_add s₁.columns _ hg
  unfold ColorGraphicsArray.scrollPastEnd
  split_ifs
  · refine ⟨rfl, rfl, rfl, rfl, rfl, ?_⟩
    exact (hw.copyRange (by unfold ColorGraphicsArray.window; omega)).setShorts _ _ _
  · exact ⟨rfl, rfl, rfl, rfl, rfl, hw⟩

/-- Printing the same character keeps twins twins. -/
lemma Twin.putChar {s₁ s₂ : State} (hg : 1 ≤ s₁.rows) (h : Twin s₁ s₂) (c f b : UInt8) :
    Twin (putChar s₁ c f b) (putChar s₂ c f b) := by
  rw [putChar_eq, putChar_eq]
  obtain ⟨-, hr₁⟩ := writeCell_geometry s₁ c f b
  obtain ⟨-, hr₂⟩ := wrapLine_geometry (ColorGraphicsArray.writeCell s₁ c f b)
  exact (((h.writeCell c f b).wrapLine).scrollPastEnd (by omega)).updateCursorPosition

/-! ## Whole runs -/

/-- `clear` puts the cursor on the screen. -/
lemma clear_onScreen {s : State} (hg : Geometry s.columns s.rows) : OnScreen (clear s) :=
  updateCursorPosition_onScreen hg (by simpa using hg.rows_pos) (by simpa using hg.columns_pos)

/-- `clear` writes only the first cell. -/
lemma clear_memory_of_le {s : State} {off : Nat} (hoff : 2 ≤ off) :
    (clear s).memory off = s.memory off := by
  simp only [clear, updateCursorPosition_memory]
  exact setShorts_of_ne fun _ _ => by omega

/-- Clearing keeps twins twins. -/
lemma Twin.clear {s₁ s₂ : State} (h : Twin s₁ s₂) : Twin (clear s₁) (clear s₂) := by
  rw [h.eq]
  exact ⟨rfl, rfl, rfl, rfl, rfl, h.window.setShorts _ _ _⟩

/-- One call from a state on the screen: the geometry is kept, the cursor stays on the screen,
memory outside the window is untouched, and only the window is read. -/
lemma Op.apply_spec {s : State} (hg : Geometry s.columns s.rows) (h : OnScreen s) {op : Op}
    (hop : op.Valid s.columns s.rows) :
    (op.apply s).columns = s.columns ∧ (op.apply s).rows = s.rows ∧ OnScreen (op.apply s) ∧
      (∀ off, window s ≤ off → (op.apply s).memory off = s.memory off) ∧
      ∀ s', Twin s s' → Twin (op.apply s) (op.apply s') := by
  cases op with
  | putChar c f b =>
    obtain ⟨hc₁, hr₁⟩ := writeCell_geometry s c f b
    obtain ⟨hc₂, hr₂⟩ := wrapLine_geometry (writeCell s c f b)
    obtain ⟨hc₃, hr₃⟩ := scrollPastEnd_geometry (wrapLine (writeCell s c f b))
    refine ⟨?_, ?_, putChar_onScreen hg h c f b, fun off => putChar_memory_of_le hg h c f b,
      fun s' hs' => hs'.putChar hg.rows_pos c f b⟩ <;>
      simp only [Op.apply, putChar_eq, updateCursorPosition_columns, updateCursorPosition_rows, *]
  | clear =>
    refine ⟨rfl, rfl, clear_onScreen hg, fun off hoff => clear_memory_of_le ?_,
      fun s' hs' => hs'.clear⟩
    have := Nat.mul_le_mul hg.rows_pos hg.columns_pos
    unfold window at hoff
    omega
  | setPosition column row =>
    refine ⟨rfl, rfl, ⟨hop.2, hop.1, h.cursor_lt⟩, fun _ _ => rfl, fun s' hs' => ?_⟩
    rw [hs'.eq]
    exact ⟨rfl, rfl, rfl, rfl, rfl, hs'.window⟩

/-- A run from a state on the screen keeps the geometry and the cursor on the screen, writes only
inside the window and reads only inside it. -/
lemma run_spec {s : State} (hg : Geometry s.columns s.rows) (h : OnScreen s) (ops : List Op)
    (hops : ∀ op ∈ ops, op.Valid s.columns s.rows) :
    (run s ops).columns = s.columns ∧ (run s ops).rows = s.rows ∧ OnScreen (run s ops) ∧
      (∀ off, window s ≤ off → (run s ops).memory off = s.memory off) ∧
      ∀ s', Twin s s' → Twin (run s ops) (run s' ops) := by
  induction ops generalizing s with
  | nil => exact ⟨rfl, rfl, h, fun _ _ => rfl, fun _ h' => h'⟩
  | cons op ops ih =>
    obtain ⟨hc, hr, hon, hmem, htwin⟩ := Op.apply_spec hg h (hops op (List.mem_cons_self _ _))
    obtain ⟨hc', hr', hon', hmem', htwin'⟩ := ih (by rwa [hc, hr]) hon
      (by rw [hc, hr]; exact fun op' hop' => hops op' (List.mem_cons_of_mem _ hop'))
    have hw : window (op.apply s) = window s := by unfold window; rw [hc, hr]
    exact ⟨hc'.trans hc, hr'.trans hr, hon', fun off hoff => (hmem' off (hw ▸ hoff)).trans
      (hmem off hoff), fun s' hs' => htwin' _ (htwin s' hs')⟩

/-- From construction, for every geometry covered and every sequence of `putChar`, `clear` and
on-screen `setPosition` calls: the cursor stays on the screen, so the two bytes the next
`putChar` writes and the position sent to the CRT controller lie in the window; no byte outside
the window is written; and no byte outside it is read, since memories that agree on the window
give windows that agree. -/
theorem cursor_stays_on_screen {columns rows : Nat} (hg : Geometry columns rows)
    (memory : Nat → UInt8) (ops : List Op) (hops : ∀ op ∈ ops, op.Valid columns rows) :
    OnScreen (run (create columns rows memory) ops) ∧
      2 * ((run (create columns rows memory) ops).currentRow * columns +
        (run (create columns rows memory) ops).currentColumn) + 1 < 2 * (rows * columns) ∧
      (∀ off, 2 * (rows * columns) ≤ off →
        (run (create columns rows memory) ops).memory off = memory off) ∧
      ∀ memory', (∀ off < 2 * (rows * columns), memory' off = memory off) →
        ∀ off < 2 * (rows * columns),
          (run (create columns rows memory) ops).memory off =
            (run (create columns rows memory') ops).memory off := by
  have hw : 2 ≤ 2 * (rows * columns) := by
    have := Nat.mul_le_mul hg.rows_pos hg.columns_pos; omega
  obtain ⟨hc, hr, hon, hmem, htwin⟩ := @run_spec (create columns rows memory) hg
    (clear_onScreen hg) ops hops
  have hcell := cell_lt hon.row_lt hon.column_lt
  have hcc : (create columns rows memory).columns = columns := rfl
  have hrc : (create columns rows memory).rows = rows := rfl
  rw [hc, hr, hcc, hrc] at hcell
  refine ⟨hon, by omega, fun off hoff => (hmem off hoff).trans (clear_memory_of_le (by omega)),
    fun memory' hm off hoff => ?_⟩
  have htw : Twin (create columns rows memory) (create columns rows memory') :=
    (@twin_withMemory ⟨columns, rows, 0, 0, memory, 0⟩ memory'
      fun off hoff => (hm off hoff).symm).clear
  exact (htwin _ htw).window off (by unfold window; rwa [hc, hr])

/-- An 80 × 25 screen after one character. -/
theorem cursor_stays_on_screen_80x25 :
    Geometry 80 25 ∧ (∀ op ∈ [Op.putChar 65 7 0], op.Valid 80 25) ∧
      (OnScreen (run (create 80 25 fun _ => 0) [.putChar 65 7 0]) ∧
        2 * ((run (create 80 25 fun _ => 0) [.putChar 65 7 0]).currentRow * 80 +
          (run (create 80 25 fun _ => 0) [.putChar 65 7 0]).currentColumn) + 1 < 2 * (25 * 80) ∧
        (∀ off, 2 * (25 * 80) ≤ off →
          (run (create 80 25 fun _ => 0) [.putChar 65 7 0]).memory off = (fun _ => 0) off) ∧
        ∀ memory', (∀ off < 2 * (25 * 80), memory' off = (fun _ => (0 : UInt8)) off) →
          ∀ off < 2 * (25 * 80),
            (run (create 80 25 fun _ => 0) [.putChar 65 7 0]).memory off =
              (run (create 80 25 memory') [.putChar 65 7 0]).memory off) := by
  have hg : Geometry 80 25 := ⟨by decide, by decide, by decide⟩
  have hops : ∀ op ∈ [Op.putChar 65 7 0], op.Valid 80 25 := by simp [Op.Valid]
  exact ⟨hg, hops, cursor_stays_on_screen hg _ _ hops⟩

/-! ## The two-dimensional terminal the window should show -/

/-- The terminal of the specification: a grid of `(character, attribute)` cells and a cursor.
It follows the specification's words, to be compared with the driver. -/
structure Terminal where
  columns : Nat
  rows : Nat
  column : Nat
  row : Nat
  cell : Nat → Nat → UInt8 × UInt8

namespace Terminal

/-- The blank value `0x000f`: character `0x0f` and attribute `0x00`. -/
def blankCell : UInt8 × UInt8 := (0x0f, 0x00)

/-- Writes one cell. -/
def write (t : Terminal) (row column : Nat) (value : UInt8 × UInt8) : Terminal :=
  { t with cell := fun r c => if r = row ∧ c = column then value else t.cell r c }

/-- Moves the cursor to column 0 of the next row. -/
def newLine (t : Terminal) : Terminal := { t with row := t.row + 1, column := 0 }

/-- Every row moves up by one, the last row is blank, and the cursor goes to its start. -/
def scroll (t : Terminal) : Terminal :=
  { t with cell := fun r c => if r + 1 < t.rows then t.cell (r + 1) c else blankCell,
           row := t.rows - 1, column := 0 }

/-- A character other than `'\n'` is written with attribute `background << 4 | foreground` and
advances the cursor; `'\n'` writes a blank with attribute 0 and starts the next row; passing the
last column wraps; passing the last row scrolls. -/
def putChar (t : Terminal) (c foregroundColor backgroundColor : UInt8) : Terminal :=
  let t := if c = newline then (t.write t.row t.column (blank, 0)).newLine
    else { t.write t.row t.column (c, (backgroundColor <<< 4) ||| foregroundColor) with
           column := t.column + 1 }
  let t := if t.columns ≤ t.column then t.newLine else t
  if t.rows ≤ t.row then t.scroll else t

/-- Every cell blank, the cursor at `(0, 0)`. -/
def clear (t : Terminal) : Terminal := { t with cell := fun _ _ => blankCell, row := 0, column := 0 }

/-- Runs a call. -/
def apply (t : Terminal) : Op → Terminal
  | .putChar c foregroundColor backgroundColor => t.putChar c foregroundColor backgroundColor
  | .clear => t.clear
  | .setPosition column row => { t with column := column, row := row }

/-- A new terminal is clear. -/
def create (columns rows : Nat) : Terminal := clear ⟨columns, rows, 0, 0, fun _ _ => blankCell⟩

end Terminal

/-- The window shows the terminal: the same geometry and cursor, and cell `(r, c)` at bytes
`2 · (r · columns + c)` (character) and the one after (attribute). -/
structure Shows (s : State) (t : Terminal) : Prop where
  columns : s.columns = t.columns
  rows : s.rows = t.rows
  column : s.currentColumn = t.column
  row : s.currentRow = t.row
  cells : ∀ r < t.rows, ∀ c < t.columns,
    s.memory (2 * (r * t.columns + c)) = (t.cell r c).1 ∧
      s.memory (2 * (r * t.columns + c) + 1) = (t.cell r c).2

/-- `clear` blanks only the first cell: after `A`, `B` on a 2 × 2 screen, `clear` leaves `B` in
cell `(0, 1)`, where the terminal is blank. -/
theorem clear_leaves_cells :
    (run (create 2 2 fun _ => 0) [.putChar 65 7 0, .putChar 66 7 0, .clear]).memory 2 = 66 ∧
      ((Terminal.create 2 2).apply (.putChar 65 7 0) |>.apply (.putChar 66 7 0) |>.apply .clear).cell
        0 1 = Terminal.blankCell ∧
      ¬ Shows (run (create 2 2 fun _ => 0) [.putChar 65 7 0, .putChar 66 7 0, .clear])
        ((Terminal.create 2 2).apply (.putChar 65 7 0) |>.apply (.putChar 66 7 0) |>.apply .clear) := by
  have hmem : (run (create 2 2 fun _ => 0) [.putChar 65 7 0, .putChar 66 7 0, .clear]).memory 2 = 66 := by
    decide
  refine ⟨hmem, rfl, fun h => ?_⟩
  have := (h.cells 0 (by decide) 1 (by decide)).1
  rw [show 2 * (0 * ((Terminal.create 2 2).apply (.putChar 65 7 0) |>.apply (.putChar 66 7 0)
    |>.apply .clear).columns + 1) = 2 from rfl, hmem] at this
  exact absurd this (by decide)

/-! ## `putChar` and `setPosition` keep the window showing the terminal -/

/-- Distinct cells have distinct offsets. -/
lemma cell_eq_iff {r r' c c' columns : Nat} (hc : c < columns) (hc' : c' < columns) :
    r * columns + c = r' * columns + c' ↔ r = r' ∧ c = c' := by
  refine ⟨fun h => ?_, fun ⟨hr, hc⟩ => by rw [hr, hc]⟩
  rcases Nat.lt_trichotomy r r' with hr | rfl | hr
  · have := cell_lt hr hc; omega
  · omega
  · have := cell_lt hr hc'; omega

/-- An upward copy to a lower address reads each byte before it overwrites it. -/
lemma copyRange_apply_of_mem {memory : Nat → UInt8} {target source length off : Nat}
    (hts : target ≤ source) (h₁ : target ≤ off) (h₂ : off < target + length) :
    copyRange memory target source length off = memory (source + (off - target)) := by
  induction length generalizing memory target source with
  | zero => omega
  | succ length ih =>
    rw [copyRange]
    by_cases h : off = target
    · subst h
      rw [copyRange_of_not_mem (by omega), setByte_apply, if_pos rfl, Nat.sub_self, Nat.add_zero]
    · rw [ih (by omega) (by omega) (by omega), setByte_apply, if_neg (by omega)]
      congr 1; omega

/-- The loop of `scrollUp` stores the value in every cell it visits. -/
lemma setShorts_apply {memory : Nat → UInt8} {base : Nat} {value : UInt16} {count j : Nat}
    (hj : j < count) :
    setShorts memory (fun i => base + i * 2) value count (base + j * 2) = value.toUInt8 ∧
      setShorts memory (fun i => base + i * 2) value count (base + j * 2 + 1) =
        (value >>> 8).toUInt8 := by
  induction count with
  | zero => omega
  | succ count ih =>
    simp only [setShorts, setShort, setByte_apply]
    by_cases h : j = count
    · subst h; simp
    · obtain ⟨h₁, h₂⟩ := ih (by omega)
      rw [if_neg (by omega), if_neg (by omega), if_neg (by omega), if_neg (by omega)]
      exact ⟨h₁, h₂⟩

/-- `scrollUp` moves every byte of rows `1 ..` one row up. -/
lemma scrollUp_memory_of_lt {s : State} {off : Nat} (hoff : off < s.columns * (s.rows - 1) * 2) :
    (scrollUp s).memory off = s.memory (s.columns * 2 + off) := by
  simp only [scrollUp]
  rw [setShorts_of_ne fun i _ => by constructor <;> omega,
    copyRange_apply_of_mem (Nat.zero_le _) (Nat.zero_le _) (by rwa [Nat.zero_add]), Nat.sub_zero]

/-- `scrollUp` blanks every cell of the last row. -/
lemma scrollUp_memory_lastRow {s : State} {j : Nat} (hj : j < s.columns) :
    (scrollUp s).memory (s.columns * (s.rows - 1) * 2 + j * 2) = clearValue.toUInt8 ∧
      (scrollUp s).memory (s.columns * (s.rows - 1) * 2 + j * 2 + 1) =
        (clearValue >>> 8).toUInt8 :=
  setShorts_apply hj

/-- Moving the hardware cursor changes nothing on the terminal. -/
lemma Shows.updateCursorPosition {s : State} {t : Terminal} (h : Shows s t) :
    Shows (updateCursorPosition s) t :=
  ⟨h.columns, h.rows, h.column, h.row, h.cells⟩

/-- Writing a cell shows the character at the cursor, or a blank and a new line for a newline. -/
lemma Shows.writeCell {s : State} {t : Terminal} (hg : Geometry s.columns s.rows)
    (hon : OnScreen s) (h : Shows s t) (c f b : UInt8) :
    Shows (writeCell s c f b)
      (if c = newline then (t.write t.row t.column (blank, 0)).newLine
       else { t.write t.row t.column (c, (b <<< 4) ||| f) with column := t.column + 1 }) := by
  obtain ⟨C, R, x, y, m, p⟩ := s
  obtain ⟨hC, hR, hx, hy, hcells⟩ := h
  simp only at hC hR hx hy hcells hg hon ⊢
  subst hC hR hx hy
  have hcol : t.column < t.columns := hon.column_lt
  -- both branches write one cell and leave the others
  have hwrite : ∀ v : UInt8 × UInt8, ∀ r < t.rows, ∀ c' < t.columns,
      setByte (setByte m (2 * (t.row * t.columns + t.column)) v.1)
          (2 * (t.row * t.columns + t.column) + 1) v.2 (2 * (r * t.columns + c')) =
        (if r = t.row ∧ c' = t.column then v else t.cell r c').1 ∧
      setByte (setByte m (2 * (t.row * t.columns + t.column)) v.1)
          (2 * (t.row * t.columns + t.column) + 1) v.2 (2 * (r * t.columns + c') + 1) =
        (if r = t.row ∧ c' = t.column then v else t.cell r c').2 := by
    intro v r hr c' hc'
    by_cases hrc : r = t.row ∧ c' = t.column
    · obtain ⟨rfl, rfl⟩ := hrc
      simp [setByte_apply]
    · have hne : r * t.columns + c' ≠ t.row * t.columns + t.column :=
        fun e => hrc ((cell_eq_iff hc' hcol).mp e)
      simp only [setByte_apply, if_neg hrc]
      rw [if_neg (by omega), if_neg (by omega), if_neg (by omega), if_neg (by omega)]
      exact hcells r hr c' hc'
  have hcell : t.row * t.columns + t.column < t.rows * t.columns := cell_lt hon.row_lt hcol
  have hw : 2 * (t.rows * t.columns) ≤ 2 ^ 16 := hg.window_le
  have hpos : (t.row * t.columns + t.column) * 2 % 2 ^ 16 = 2 * (t.row * t.columns + t.column) := by
    rw [Nat.mod_eq_of_lt (by omega)]; omega
  unfold ColorGraphicsArray.writeCell
  simp only [hpos]
  split_ifs
  · exact ⟨rfl, rfl, rfl, rfl, hwrite (blank, 0)⟩
  · exact ⟨rfl, rfl, rfl, rfl, hwrite (c, (b <<< 4) ||| f)⟩

/-- Wrapping starts a new line on the terminal exactly when the cursor is past the last column. -/
lemma Shows.wrapLine {s : State} {t : Terminal} (h : Shows s t) :
    Shows (wrapLine s) (if t.columns ≤ t.column then t.newLine else t) := by
  obtain ⟨hC, hR, hx, hy, hcells⟩ := h
  unfold ColorGraphicsArray.wrapLine
  split_ifs
  · exact ⟨hC, hR, rfl, by simp [hy, Terminal.newLine], hcells⟩
  · omega
  · omega
  · exact ⟨hC, hR, hx, hy, hcells⟩

/-- `scrollUp` moves every row up and blanks the last, as the terminal's `scroll`. -/
lemma Shows.scrollPastEnd {s : State} {t : Terminal} (h : Shows s t) :
    Shows (scrollPastEnd s) (if t.rows ≤ t.row then t.scroll else t) := by
  obtain ⟨hC, hR, hx, hy, hcells⟩ := h
  unfold ColorGraphicsArray.scrollPastEnd
  split_ifs with h₁ h₂ h₂
  · refine ⟨hC, hR, rfl, by simp [Terminal.scroll, hR], fun r hr c hc => ?_⟩
    dsimp only [Terminal.scroll] at hr hc ⊢
    by_cases hlast : r + 1 < t.rows
    · -- row `r + 1` moves up to row `r`
      have hin : 2 * (r * t.columns + c) + 1 < s.columns * (s.rows - 1) * 2 := by
        have := cell_lt (show r < s.rows - 1 by omega) (show c < s.columns by omega)
        rw [← hC, Nat.mul_comm s.columns (s.rows - 1)]; omega
      have e : s.columns * 2 + 2 * (r * t.columns + c) = 2 * ((r + 1) * t.columns + c) := by
        rw [← hC, Nat.add_mul, Nat.one_mul]; omega
      rw [if_pos hlast, scrollUp_memory_of_lt (Nat.lt_of_succ_lt hin), scrollUp_memory_of_lt hin,
        ← Nat.add_assoc, e]
      exact hcells (r + 1) hlast c hc
    · -- the last row is blank
      have e : 2 * (r * t.columns + c) = s.columns * (s.rows - 1) * 2 + c * 2 := by
        rw [show r = s.rows - 1 by omega, ← hC, Nat.mul_comm s.columns]; omega
      rw [if_neg hlast, e]
      exact scrollUp_memory_lastRow (hC ▸ hc)
  · omega
  · omega
  · exact ⟨hC, hR, hx, hy, hcells⟩

/-- `putChar` refines the terminal's `putChar`: steps (1) to (4) of the specification. -/
theorem putChar_refines {s : State} {t : Terminal} (hg : Geometry s.columns s.rows)
    (hon : OnScreen s) (h : Shows s t) (c f b : UInt8) :
    Shows (putChar s c f b) (t.putChar c f b) := by
  rw [putChar_eq]
  exact ((h.writeCell hg hon c f b).wrapLine.scrollPastEnd).updateCursorPosition

/-- Every call but `clear` keeps the window showing the terminal. -/
lemma Shows.apply {s : State} {t : Terminal} (hg : Geometry s.columns s.rows) (hon : OnScreen s)
    (h : Shows s t) {op : Op} (hop : op ≠ .clear) : Shows (op.apply s) (t.apply op) := by
  cases op with
  | putChar c f b => exact putChar_refines hg hon h c f b
  | clear => exact absurd rfl hop
  | setPosition column row => exact ⟨h.columns, h.rows, rfl, rfl, h.cells⟩

/-- For every geometry covered and every sequence of `putChar` and on-screen `setPosition`
calls, from a state on the screen whose window shows the terminal, the window keeps showing the
terminal: the offset arithmetic and the scroll's copy and blanking agree with the model. -/
theorem window_shows_terminal {s : State} {t : Terminal} (hg : Geometry s.columns s.rows)
    (hon : OnScreen s) (h : Shows s t) (ops : List Op)
    (hops : ∀ op ∈ ops, op.Valid s.columns s.rows ∧ op ≠ .clear) :
    Shows (run s ops) (ops.foldl Terminal.apply t) := by
  induction ops generalizing s t with
  | nil => exact h
  | cons op ops ih =>
    obtain ⟨hv, hnc⟩ := hops op (List.mem_cons_self _ _)
    obtain ⟨hc, hr, hon', -, -⟩ := Op.apply_spec hg hon hv
    exact ih (by rwa [hc, hr]) hon' (h.apply hg hon hnc)
      (by rw [hc, hr]; exact fun op' hop' => hops op' (List.mem_cons_of_mem _ hop'))

/-- A one-cell screen showing a blank cell keeps showing the terminal after a character. -/
theorem window_shows_terminal_one_cell :
    Geometry 1 1 ∧ OnScreen ⟨1, 1, 0, 0, fun off => if off = 0 then 0x0f else 0, 0⟩ ∧
      Shows ⟨1, 1, 0, 0, fun off => if off = 0 then 0x0f else 0, 0⟩ (Terminal.create 1 1) ∧
      (∀ op ∈ [Op.putChar 65 7 0], op.Valid 1 1 ∧ op ≠ .clear) ∧
      Shows (run ⟨1, 1, 0, 0, fun off => if off = 0 then 0x0f else 0, 0⟩ [.putChar 65 7 0])
        ([Op.putChar 65 7 0].foldl Terminal.apply (Terminal.create 1 1)) := by
  have hg : Geometry 1 1 := ⟨Nat.le_refl 1, Nat.le_refl 1, by decide⟩
  have hon : OnScreen ⟨1, 1, 0, 0, fun off => if off = 0 then 0x0f else 0, 0⟩ :=
    ⟨Nat.one_pos, Nat.one_pos, Nat.one_pos⟩
  have h : Shows ⟨1, 1, 0, 0, fun off => if off = 0 then 0x0f else 0, 0⟩ (Terminal.create 1 1) :=
    ⟨rfl, rfl, rfl, rfl, by decide⟩
  have hops : ∀ op ∈ [Op.putChar 65 7 0], op.Valid 1 1 ∧ op ≠ .clear := by
    simp [Op.Valid]
  exact ⟨hg, hon, h, hops, window_shows_terminal hg hon h _ hops⟩

end ColorGraphicsArray

end HhuOS
