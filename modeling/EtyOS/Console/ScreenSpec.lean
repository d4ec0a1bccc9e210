import EtyOS.Library.Terminal
import EtyOS.Console.Screen

/-!
# The screen as a terminal

Read cell by cell, the video memory and the two variables are a terminal of 25
rows of 80 characters, and each function of `print.c` does to it what the
terminal operation of that name does.
-/

namespace EtyOS.Console

open Library MemoryBlock

variable {ρ : Type}

/-- The window of characters and the cursor. -/
def screen (s : Console ρ) : Terminal ScreenChar where
  cell := s.cell
  row := s.row
  col := s.col

variable (s : Console ρ)

@[simp] theorem screen_cell : s.screen.cell = s.cell := rfl
@[simp] theorem screen_row : s.screen.row = s.row := rfl
@[simp] theorem screen_col : s.screen.col = s.col := rfl

theorem stepBack_screen : s.stepBack.screen = s.screen.stepBack numCols := by
  unfold stepBack Terminal.stepBack
  rw [screen_row, screen_col]
  split
  · rfl
  · split <;> rfl

@[simp] theorem stepBack_color : s.stepBack.color = s.color := by
  unfold stepBack
  split
  · rfl
  · split <;> rfl

variable [CellRecord ρ]

section Cells

theorem setChar_cell (index : ℕ) (ch : ScreenChar) :
    (s.setChar index ch).cell = Function.update s.cell index ch := by
  funext k
  by_cases hk : k = index
  · subst hk
    have hlow := Memory.write_apply s.memory (videoBuffer + sizeofChar * k)
      [ch.character, ch.color] 0
    have hhigh := Memory.write_apply s.memory (videoBuffer + sizeofChar * k)
      [ch.character, ch.color] 1
    rw [Nat.add_zero] at hlow
    rw [Function.update_self, cell, setChar]
    simp only [hlow, hhigh]
    rfl
  · have hother : ∀ b, b / 2 ≠ index →
        (s.setChar index ch).memory (videoBuffer + b) = s.memory (videoBuffer + b) := by
      intro b hb
      apply Memory.write_frame
      simp only [sizeofChar, List.length_cons, List.length_nil]
      omega
    have hlow := hother (sizeofChar * k) (by simp only [sizeofChar]; omega)
    have hhigh := hother (sizeofChar * k + 1) (by simp only [sizeofChar]; omega)
    rw [Function.update_of_ne hk, cell, cell, hlow, Nat.add_assoc, hhigh]

/-- The first `n` characters of a row cleared. -/
theorem clearRow_loop (row n : ℕ) (ch : ScreenChar) :
    let s' := (List.range n).foldl (fun s' col => s'.setChar (col + numCols * row) ch) s
    (∀ k, s'.cell k = if numCols * row ≤ k ∧ k < numCols * row + n then ch else s.cell k) ∧
      s'.row = s.row ∧ s'.col = s.col ∧ s'.color = s.color := by
  induction n with
  | zero =>
    refine ⟨fun k => ?_, rfl, rfl, rfl⟩
    rw [if_neg (by omega)]
    rfl
  | succ n ih =>
    obtain ⟨hcell, hrow, hcol, hcolor⟩ := ih
    rw [List.range_succ, List.foldl_append]
    refine ⟨fun k => ?_, hrow, hcol, hcolor⟩
    simp only [List.foldl_cons, List.foldl_nil, setChar_cell]
    by_cases hk : k = n + numCols * row
    · rw [hk, Function.update_self, if_pos (by omega)]
    · rw [Function.update_of_ne hk, hcell k]
      exact if_congr (by omega) rfl rfl

theorem clearRow_cell (row k : ℕ) :
    (s.clearRow row).cell k =
      if numCols * row ≤ k ∧ k < numCols * row + numCols then s.empty else s.cell k :=
  (clearRow_loop s row numCols s.empty).1 k

@[simp] theorem clearRow_row (row : ℕ) : (s.clearRow row).row = s.row :=
  (clearRow_loop s row numCols s.empty).2.1

@[simp] theorem clearRow_col (row : ℕ) : (s.clearRow row).col = s.col :=
  (clearRow_loop s row numCols s.empty).2.2.1

@[simp] theorem clearRow_color (row : ℕ) : (s.clearRow row).color = s.color :=
  (clearRow_loop s row numCols s.empty).2.2.2

/-- The first `n` rows cleared. -/
theorem printClear_loop (n : ℕ) :
    let s' := (List.range n).foldl (fun s' i => s'.clearRow i) s
    (∀ k, s'.cell k = if k < numCols * n then s.empty else s.cell k) ∧
      s'.row = s.row ∧ s'.col = s.col ∧ s'.color = s.color := by
  induction n with
  | zero =>
    refine ⟨fun k => ?_, rfl, rfl, rfl⟩
    rw [if_neg (by omega)]
    rfl
  | succ n ih =>
    obtain ⟨hcell, hrow, hcol, hcolor⟩ := ih
    rw [List.range_succ, List.foldl_append]
    refine ⟨fun k => ?_, ?_, ?_, ?_⟩
    · simp only [List.foldl_cons, List.foldl_nil, clearRow_cell, empty, hcolor]
      by_cases hk : numCols * n ≤ k ∧ k < numCols * n + numCols
      · rw [if_pos hk, if_pos (by rw [Nat.mul_succ]; omega)]
      · rw [if_neg hk, hcell k]
        exact if_congr (by rw [Nat.mul_succ]; omega) rfl rfl
    · rw [List.foldl_cons, List.foldl_nil, clearRow_row, hrow]
    · rw [List.foldl_cons, List.foldl_nil, clearRow_col, hcol]
    · rw [List.foldl_cons, List.foldl_nil, clearRow_color, hcolor]

/-- The whole screen is cleared and the row is 0; the column stays. -/
theorem printClear_spec :
    (∀ k < numCols * numRows, s.printClear.cell k = s.empty) ∧
      s.printClear.row = 0 ∧ s.printClear.col = s.col ∧ s.printClear.color = s.color := by
  obtain ⟨hcell, hrow, hcol, hcolor⟩ := printClear_loop { s with row := 0 } numRows
  refine ⟨fun k hk => ?_, hrow, hcol, hcolor⟩
  exact (hcell k).trans (if_pos hk)

@[simp] theorem moveUp_memory : s.moveUp.memory =
    memoryMove s.memory videoBuffer (videoBuffer + sizeofChar * numCols)
      ((numRows - 1) * numCols * sizeofChar) := rfl

@[simp] theorem moveUp_row : s.moveUp.row = s.row := rfl
@[simp] theorem moveUp_col : s.moveUp.col = s.col := rfl
@[simp] theorem moveUp_color : s.moveUp.color = s.color := rfl

theorem moveUp_byte (i : ℕ) : s.moveUp.memory (videoBuffer + i) =
    if i < sizeofChar * (numCols * (numRows - 1)) then
      s.memory (videoBuffer + (i + sizeofChar * numCols))
    else s.memory (videoBuffer + i) := by
  have hlength : (numRows - 1) * numCols * sizeofChar = sizeofChar * (numCols * (numRows - 1)) := rfl
  rw [moveUp_memory, memoryMove_apply, Nat.add_sub_cancel_left]
  by_cases hi : i < sizeofChar * (numCols * (numRows - 1))
  · rw [if_pos (by omega), if_pos hi]
    congr 1
    omega
  · rw [if_neg (by omega), if_neg hi]

/-- Every row but the last is now the one that was below it. -/
theorem moveUp_cell (k : ℕ) : s.moveUp.cell k =
    if k < numCols * (numRows - 1) then s.cell (k + numCols) else s.cell k := by
  have hfirst : sizeofChar * k < sizeofChar * (numCols * (numRows - 1)) ↔
      k < numCols * (numRows - 1) := by
    simp only [sizeofChar]
    omega
  have hsecond : sizeofChar * k + 1 < sizeofChar * (numCols * (numRows - 1)) ↔
      k < numCols * (numRows - 1) := by
    simp only [sizeofChar]
    omega
  have hlow := moveUp_byte s (sizeofChar * k)
  have hhigh := moveUp_byte s (sizeofChar * k + 1)
  by_cases hk : k < numCols * (numRows - 1)
  · rw [if_pos (hfirst.mpr hk), ← Nat.mul_add] at hlow
    rw [if_pos (hsecond.mpr hk), Nat.add_right_comm, ← Nat.mul_add] at hhigh
    rw [if_pos hk, cell, hlow, Nat.add_assoc, hhigh]
    rfl
  · rw [if_neg (fun h => hk (hfirst.mp h))] at hlow
    rw [if_neg (fun h => hk (hsecond.mp h))] at hhigh
    rw [if_neg hk, cell, hlow, Nat.add_assoc, hhigh]
    rfl

end Cells

section Operations

@[simp] theorem printNewline_color : s.printNewline.color = s.color := by
  unfold printNewline
  simp only
  split
  · rfl
  · rw [clearRow_color, moveUp_color]

/-- What a newline does while there is a row below. -/
theorem printNewline_of_lt (hroom : s.row < numRows - 1) :
    s.printNewline = { s with row := s.row + 1, col := 0 } := if_pos hroom

/-- What a newline does on the last row. -/
theorem printNewline_of_not_lt (hroom : ¬s.row < numRows - 1) :
    s.printNewline = clearRow (numRows - 1) { s with col := 0 }.moveUp := if_neg hroom

theorem printNewline_screen :
    s.printNewline.screen = s.screen.newline numCols numRows s.empty := by
  by_cases hroom : s.row < numRows - 1
  · rw [printNewline_of_lt s hroom, Terminal.newline, screen_row, if_pos hroom]
    rfl
  · have hempty : ({ s with col := 0 } : Console ρ).moveUp.empty = s.empty := by
      rw [empty, moveUp_color]
      rfl
    have hcell : ({ s with col := 0 } : Console ρ).cell = s.cell := rfl
    have hlast : numCols * (numRows - 1) + numCols = numCols * numRows := rfl
    rw [printNewline_of_not_lt s hroom, Terminal.newline, screen_row, if_neg hroom]
    apply Terminal.ext
    · funext k
      rw [screen_cell, clearRow_cell, moveUp_cell, hempty, hcell]
      simp only [Terminal.scroll_apply, screen_cell]
      by_cases hmoved : k < numCols * (numRows - 1)
      · rw [if_neg (by omega), if_pos hmoved, if_pos hmoved]
      · rw [if_neg hmoved, if_neg hmoved]
        exact if_congr (by omega) rfl rfl
    · rw [screen_row, clearRow_row, moveUp_row]
    · rw [screen_col, clearRow_col, moveUp_col]

@[simp] theorem printChar_color (c : UInt8) : (s.printChar c).color = s.color := by
  unfold printChar
  split
  · exact printNewline_color s
  · split
    · exact stepBack_color s
    · split
      · exact printNewline_color s
      · rfl

theorem printChar_newline : (s.printChar 0x0A).screen = s.screen.newline numCols numRows s.empty :=
  printNewline_screen s

/-- A backspace moves the cursor back and blanks the character there. -/
theorem printChar_backspace : (s.printChar 0x08).screen = s.screen.erase numCols s.empty := by
  have hback := stepBack_screen s
  have hempty : s.stepBack.empty = s.empty := by
    rw [empty, stepBack_color]
    rfl
  have hchar : s.printChar 0x08 =
      s.stepBack.setChar (s.stepBack.col + numCols * s.stepBack.row) s.stepBack.empty := rfl
  have hkept : s.stepBack.cell = s.cell := by
    unfold stepBack
    split
    · rfl
    · split <;> rfl
  have hcursor : s.stepBack.col + numCols * s.stepBack.row =
      numCols * (s.screen.stepBack numCols).row + (s.screen.stepBack numCols).col := by
    rw [← hback, Nat.add_comm]
    rfl
  rw [hchar, hempty, Terminal.erase]
  apply Terminal.ext
  · rw [screen_cell, setChar_cell, hkept, hcursor]
    rfl
  · rw [← hback]
    rfl
  · rw [← hback]
    rfl

/-- Every other character is put under the cursor, after the wrap if it is due. -/
theorem printChar_other {c : UInt8} (hnewline : c ≠ 0x0A) (hbackspace : c ≠ 0x08) :
    (s.printChar c).screen =
      s.screen.put numCols numRows s.empty { character := c, color := s.color } := by
  -- both sides wrap under the same condition
  have hwrap : (if numCols ≤ s.col then s.printNewline else s).screen =
      if numCols ≤ s.screen.col then s.screen.newline numCols numRows s.empty else s.screen := by
    rw [screen_col]
    split
    · exact printNewline_screen s
    · rfl
  have hcolor : (if numCols ≤ s.col then s.printNewline else s).color = s.color := by
    split
    · exact printNewline_color s
    · rfl
  rw [printChar, if_neg hnewline, if_neg hbackspace, Terminal.put, ← hwrap]
  simp only [hcolor]
  apply Terminal.ext
  · rw [Terminal.write, Nat.add_comm]
    exact setChar_cell _ _ _
  · rfl
  · rfl

theorem printStr_nil : printStr [] s = s := rfl

theorem printStr_cons (c : UInt8) (str : List UInt8) :
    printStr (c :: str) s = if c = 0 then s else printStr str (s.printChar c) := rfl

end Operations

end EtyOS.Console
