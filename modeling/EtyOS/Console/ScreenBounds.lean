import EtyOS.Console.ScreenSpec

/-!
# The console stays in video memory

A `RecordedConsole` is a console that keeps the index of every cell of `buffer`
that the functions of `print.c` write or move, and the `forget` theorems say
that the record changes nothing else. The column may be 80 between two calls, so
the invariant alone does not bound the cell of a character: `print_char` wraps
first.
-/

namespace EtyOS

open Library MemoryBlock

/-- A console and the cells that have been written or moved, oldest first. -/
abbrev RecordedConsole := Console (List ℕ)

/-- A call of a function of `print.c`, with what it reads through its pointers:
the bytes of the string, or what is in the local buffer of `print_int`. -/
inductive ConsoleCall where
  | char (character : UInt8)
  | newline
  | str (bytes : List UInt8)
  | int (num : UInt32) (digits : Memory)
  | clear
  | setColor (foreground background : UInt8)

namespace ConsoleCall

variable {ρ : Type} [CellRecord ρ]

def run : ConsoleCall → Console ρ → Console ρ
  | char c, s => s.printChar c
  | newline, s => s.printNewline
  | str bytes, s => s.printStr bytes
  | int num digits, s => s.printInt num digits
  | clear, s => s.printClear
  | setColor foreground background, s => s.printSetColor foreground background

/-- The console after a sequence of calls. -/
def runAll (calls : List ConsoleCall) (s : Console ρ) : Console ρ :=
  calls.foldl (fun s call => call.run s) s

end ConsoleCall

namespace Console

variable {ρ : Type}

/-- The console without its record. -/
def forget (s : Console ρ) : Console where
  memory := s.memory
  row := s.row
  col := s.col
  color := s.color

section Forget

variable (s : Console ρ)

/-- A loop of steps with a record computes the loop of the steps without. -/
theorem foldl_forget {α : Type} {f : Console ρ → α → Console ρ} {g : Console → α → Console}
    (hstep : ∀ s a, (f s a).forget = g s.forget a) (xs : List α) :
    (xs.foldl f s).forget = xs.foldl g s.forget := by
  induction xs generalizing s with
  | nil => rfl
  | cons a xs ih => rw [List.foldl_cons, List.foldl_cons, ih, hstep]

theorem stepBack_forget : s.stepBack.forget = s.forget.stepBack := by
  simp only [stepBack, apply_ite forget]
  rfl

variable [CellRecord ρ]

theorem setChar_forget (index : ℕ) (ch : ScreenChar) :
    (s.setChar index ch).forget = s.forget.setChar index ch := rfl

theorem clearRow_forget (row : ℕ) : (s.clearRow row).forget = s.forget.clearRow row :=
  foldl_forget s (fun _ _ => rfl) _

theorem printClear_forget : s.printClear.forget = s.forget.printClear :=
  foldl_forget _ (fun s' row => clearRow_forget s' row) _

theorem printNewline_forget : s.printNewline.forget = s.forget.printNewline := by
  by_cases hroom : s.row < numRows - 1
  · rw [printNewline_of_lt s hroom, printNewline_of_lt s.forget hroom]
    rfl
  · rw [printNewline_of_not_lt s hroom, printNewline_of_not_lt s.forget hroom, clearRow_forget]
    rfl

theorem printChar_forget (c : UInt8) : (s.printChar c).forget = s.forget.printChar c := by
  by_cases hnewline : c = 0x0A
  · rw [printChar, printChar, if_pos hnewline, if_pos hnewline, printNewline_forget]
  · by_cases hbackspace : c = 0x08
    · rw [printChar, printChar, if_neg hnewline, if_neg hnewline, if_pos hbackspace,
        if_pos hbackspace, setChar_forget, ← stepBack_forget]
      rfl
    · have hwrap : (if numCols ≤ s.col then s.printNewline else s).forget =
          if numCols ≤ s.forget.col then s.forget.printNewline else s.forget := by
        rw [apply_ite forget, printNewline_forget]
        rfl
      rw [printChar, printChar, if_neg hnewline, if_neg hnewline, if_neg hbackspace,
        if_neg hbackspace, ← hwrap]
      rfl

theorem printStr_forget (str : List UInt8) : (s.printStr str).forget = s.forget.printStr str := by
  induction str generalizing s with
  | nil => rfl
  | cons c str ih =>
    rw [printStr_cons, printStr_cons]
    split
    · rfl
    · rw [ih, printChar_forget]

theorem run_forget (call : ConsoleCall) : (call.run s).forget = call.run s.forget := by
  cases call with
  | char c => exact printChar_forget s c
  | newline => exact printNewline_forget s
  | str bytes => exact printStr_forget s bytes
  | int num digits =>
    simp only [ConsoleCall.run, printInt]
    split
    · apply printStr_forget
    · apply printStr_forget
  | clear => exact printClear_forget s
  | setColor foreground background => rfl

theorem runAll_forget (calls : List ConsoleCall) :
    (ConsoleCall.runAll calls s).forget = ConsoleCall.runAll calls s.forget :=
  foldl_forget s (fun s' call => run_forget s' call) calls

end Forget

end Console

namespace RecordedConsole

theorem mem_moveUp_cells (r : RecordedConsole) {k : ℕ} : k ∈ r.moveUp.cells ↔
    k ∈ r.cells ∨ k < (numRows - 1) * numCols ∨ ∃ j < (numRows - 1) * numCols, j + numCols = k := by
  have hcells : r.moveUp.cells = r.cells ++ (List.range ((numRows - 1) * numCols) ++
      (List.range ((numRows - 1) * numCols)).map (· + numCols)) := rfl
  rw [hcells]
  simp only [List.mem_append, List.mem_range, List.mem_map]

/-- The cursor is on the screen or just behind the end of a row, every cell
written or moved is one of the 80 * 25, and the bytes outside them are those of
the memory at the beginning. -/
structure InBounds (memory : Memory) (r : RecordedConsole) : Prop where
  row : r.row < numRows
  col : r.col ≤ numCols
  cells : ∀ index ∈ r.cells, index < numCols * numRows
  outside : ∀ a, a < videoBuffer ∨ videoBuffer + sizeofChar * (numCols * numRows) ≤ a →
    r.memory a = memory a

section Bounds

variable {memory : Memory} {r : RecordedConsole}

/-- A row and a column of the screen are a cell of it. -/
theorem index_lt {row col : ℕ} (hrow : row < numRows) (hcol : col < numCols) :
    col + numCols * row < numCols * numRows := by
  simp only [numRows, numCols] at *
  omega

theorem InBounds.setChar (h : InBounds memory r) {index : ℕ} (hindex : index < numCols * numRows)
    (ch : ScreenChar) : InBounds memory (r.setChar index ch) where
  row := h.row
  col := h.col
  cells := by
    intro k hk
    rcases List.mem_append.mp hk with hk | hk
    · exact h.cells k hk
    · rw [List.mem_singleton.mp hk]
      exact hindex
  outside := by
    intro a ha
    refine Eq.trans (Memory.write_frame _ _ ?_) (h.outside a ha)
    simp only [sizeofChar, List.length_cons, List.length_nil] at ha ⊢
    omega

theorem InBounds.moveCursor (h : InBounds memory r) {row col : ℕ} (hrow : row < numRows)
    (hcol : col ≤ numCols) : InBounds memory { r with row := row, col := col } where
  row := hrow
  col := hcol
  cells := h.cells
  outside := h.outside

theorem InBounds.clearRow_loop (h : InBounds memory r) {row : ℕ} (hrow : row < numRows)
    (ch : ScreenChar) {n : ℕ} (hn : n ≤ numCols) :
    InBounds memory
      ((List.range n).foldl (fun r' col => r'.setChar (col + numCols * row) ch) r) := by
  induction n with
  | zero => exact h
  | succ n ih =>
    rw [List.range_succ, List.foldl_append, List.foldl_cons, List.foldl_nil]
    exact (ih (by omega)).setChar (index_lt hrow hn) ch

theorem InBounds.clearRow (h : InBounds memory r) {row : ℕ} (hrow : row < numRows) :
    InBounds memory (r.clearRow row) :=
  h.clearRow_loop hrow r.empty le_rfl

theorem InBounds.printClear_loop (h : InBounds memory r) {n : ℕ} (hn : n ≤ numRows) :
    InBounds memory ((List.range n).foldl (fun r' i => r'.clearRow i) r) := by
  induction n with
  | zero => exact h
  | succ n ih =>
    rw [List.range_succ, List.foldl_append, List.foldl_cons, List.foldl_nil]
    exact (ih (by omega)).clearRow hn

theorem InBounds.printClear (h : InBounds memory r) : InBounds memory r.printClear := by
  unfold Console.printClear
  apply InBounds.printClear_loop
  · exact h.moveCursor (by decide) h.col
  · exact le_rfl

/-- The rows moved are the first 24, and they come from the last 24. -/
theorem InBounds.moveUp (h : InBounds memory r) : InBounds memory r.moveUp where
  row := by
    rw [Console.moveUp_row]
    exact h.row
  col := by
    rw [Console.moveUp_col]
    exact h.col
  cells := by
    have hrows : (numRows - 1) * numCols + numCols = numCols * numRows := rfl
    intro k hk
    rcases r.mem_moveUp_cells.mp hk with hk | hk | ⟨j, hj, rfl⟩
    · exact h.cells k hk
    · omega
    · omega
  outside := by
    have hlength : (numRows - 1) * numCols * sizeofChar ≤ sizeofChar * (numCols * numRows) := by
      decide
    intro a ha
    have hmoved : r.moveUp.memory a = r.memory a := by
      rw [Console.moveUp_memory, memoryMove_apply, if_neg (by omega)]
    rw [hmoved]
    exact h.outside a ha

/-- After a newline there is a column to write in. -/
theorem InBounds.printNewline (h : InBounds memory r) :
    InBounds memory r.printNewline ∧ r.printNewline.col = 0 := by
  unfold Console.printNewline
  have hstart := h.moveCursor h.row (Nat.zero_le numCols)
  dsimp only
  split
  · rename_i hroom
    exact ⟨h.moveCursor (by omega) (Nat.zero_le _), rfl⟩
  · refine ⟨hstart.moveUp.clearRow (by decide), ?_⟩
    rw [Console.clearRow_col]
    rfl

/-- A step back ends on a cell of the screen, also from behind the end of a row
and in the top left corner. -/
theorem InBounds.stepBack (h : InBounds memory r) :
    InBounds memory r.stepBack ∧ r.stepBack.col < numCols := by
  have hrow := h.row
  have hcol := h.col
  have hcols : 0 < numCols := by decide
  have hcursor : r.stepBack.row < numRows ∧ r.stepBack.col < numCols := by
    unfold Console.stepBack
    split
    · exact ⟨(Nat.sub_le _ _).trans_lt hrow, Nat.sub_lt hcols (by decide)⟩
    · split
      · exact ⟨hrow, by simp only; omega⟩
      · exact ⟨hrow, by omega⟩
  have hkept : r.stepBack.memory = r.memory ∧ r.stepBack.cells = r.cells := by
    unfold Console.stepBack
    split
    · exact ⟨rfl, rfl⟩
    · split <;> exact ⟨rfl, rfl⟩
  refine ⟨⟨hcursor.1, hcursor.2.le, ?_, ?_⟩, hcursor.2⟩
  · rw [hkept.2]
    exact h.cells
  · rw [hkept.1]
    exact h.outside

/-- The character itself, once there is a column for it. -/
theorem InBounds.putChar (h : InBounds memory r) (hcol : r.col < numCols) (ch : ScreenChar) :
    InBounds memory
      { r.setChar (r.col + numCols * r.row) ch with col := r.col + 1 } :=
  (h.setChar (index_lt h.row hcol) ch).moveCursor h.row hcol

theorem InBounds.printChar (h : InBounds memory r) (c : UInt8) :
    InBounds memory (r.printChar c) := by
  unfold Console.printChar
  split
  · exact h.printNewline.1
  · split
    · obtain ⟨hback, hcol⟩ := h.stepBack
      exact hback.setChar (index_lt hback.row hcol) _
    · by_cases hwrap : numCols ≤ r.col
      · obtain ⟨hnext, hcol⟩ := h.printNewline
        simp only [if_pos hwrap]
        exact hnext.putChar (by rw [hcol]; decide) _
      · simp only [if_neg hwrap]
        exact h.putChar (by omega) _

theorem InBounds.printStr (h : InBounds memory r) (str : List UInt8) :
    InBounds memory (r.printStr str) := by
  induction str generalizing r with
  | nil => exact h
  | cons c str ih =>
    unfold Console.printStr
    split
    · exact h
    · exact ih (h.printChar c)

/-- Every call keeps the bounds. -/
theorem InBounds.run (h : InBounds memory r) (call : ConsoleCall) :
    InBounds memory (call.run r) := by
  cases call with
  | char c => exact h.printChar c
  | newline => exact h.printNewline.1
  | str bytes => exact h.printStr bytes
  | int num digits =>
    simp only [ConsoleCall.run, Console.printInt]
    split
    · exact h.printStr _
    · exact h.printStr _
  | clear => exact h.printClear
  | setColor foreground background => exact ⟨h.row, h.col, h.cells, h.outside⟩

theorem InBounds.runAll (h : InBounds memory r) (calls : List ConsoleCall) :
    InBounds memory (ConsoleCall.runAll calls r) := by
  induction calls generalizing r with
  | nil => exact h
  | cons call calls ih => exact ih (h.run call)

/-- The console when the kernel starts, with whatever is in memory. -/
def boot (memory : Memory) (color : UInt8) : RecordedConsole where
  memory := memory
  row := 0
  col := 0
  color := color
  cells := []

/-- After every sequence of calls the cursor is in its bounds and every cell
that was written or moved is one of the screen; the recorded console is the
console, and the memory around the screen is as it was. -/
theorem console_in_bounds (memory : Memory) (color : UInt8) (calls : List ConsoleCall) :
    let r := ConsoleCall.runAll calls (boot memory color)
    r.forget = ConsoleCall.runAll calls { memory := memory, row := 0, col := 0, color := color } ∧
      r.row < 25 ∧ r.col ≤ 80 ∧ (∀ index ∈ r.cells, index < 80 * 25) ∧
      ∀ a, a < 0xb8000 ∨ 0xb8000 + 2 * (80 * 25) ≤ a → r.memory a = memory a := by
  have hboot : InBounds memory (boot memory color) :=
    { row := (by decide : 0 < numRows)
      col := Nat.zero_le _
      cells := by simp [boot]
      outside := fun _ _ => rfl }
  obtain ⟨hrow, hcol, hcells, houtside⟩ := hboot.runAll calls
  exact ⟨Console.runAll_forget (boot memory color) calls, hrow, hcol, hcells, houtside⟩

end Bounds

end RecordedConsole

end EtyOS
