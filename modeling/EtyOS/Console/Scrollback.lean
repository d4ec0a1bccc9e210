import EtyOS.Library.TextLayout
import EtyOS.Console.ScreenSpec

/-!
# The screen shows the end of the text

A text printed on the cleared screen is laid out on a page without bottom; the
screen shows the last 25 rows of that page, with the cursor behind the last
character. The induction is on the text, one character more at its end:
`textRows` says what that does to the page, `Terminal.Displays` that the screen
follows.
-/

namespace EtyOS.Console

open Library

/-- On a string without NUL the loop runs to the end of the list. -/
theorem printStr_eq_foldl {str : List UInt8} (hnul : 0 ∉ str) (s : Console) :
    printStr str s = str.foldl (fun s c => s.printChar c) s := by
  induction str generalizing s with
  | nil => rfl
  | cons c str ih =>
    have hc : c ≠ 0 := fun h => hnul (by simp [h])
    have hrest : 0 ∉ str := fun h => hnul (List.mem_cons_of_mem c h)
    rw [printStr_cons, if_neg hc, List.foldl_cons, ih hrest]

theorem printStr_concat {str : List UInt8} {c : UInt8} (hnul : 0 ∉ str ++ [c]) (s : Console) :
    printStr (str ++ [c]) s = (printStr str s).printChar c := by
  have hrest : 0 ∉ str := fun h => hnul (List.mem_append_left [c] h)
  rw [printStr_eq_foldl hnul, List.foldl_append, ← printStr_eq_foldl hrest]
  rfl

/-- The rows of a page with every character in one colour. -/
def colored (color : UInt8) (row : List UInt8) : List ScreenChar :=
  row.map fun c => { character := c, color := color }

/-- The screen shows the end of the page and the cursor is behind its last
character. -/
def ShowsPage (s : Console) (color : UInt8) (rows : List (List UInt8)) : Prop :=
  ∃ front last, rows = front ++ [last] ∧ s.color = color ∧
    Terminal.Displays numCols numRows { character := 0x20, color := color } s.screen
      (front.map (colored color)) (colored color last)

section Steps

variable {s : Console} {color : UInt8} {front : List (List UInt8)} {last : List UInt8}

theorem ShowsPage.displays (hs : ShowsPage s color (front ++ [last])) :
    s.empty = { character := 0x20, color := color } ∧ s.color = color ∧
      Terminal.Displays numCols numRows s.empty s.screen (front.map (colored color))
        (colored color last) := by
  obtain ⟨front', last', hrows, hcolor, hd⟩ := hs
  obtain ⟨rfl, hlast⟩ := List.append_inj' hrows rfl
  cases hlast
  have hempty : s.empty = { character := 0x20, color := color } := by
    rw [empty, hcolor]
  rw [hempty]
  exact ⟨rfl, hcolor, hd⟩

theorem ShowsPage.newline (hs : ShowsPage s color (front ++ [last])) :
    ShowsPage (s.printChar 0x0A) color (front ++ [last, []]) := by
  obtain ⟨hempty, hcolor, hd⟩ := hs.displays
  refine ⟨front ++ [last], [], by simp, by rw [printChar_color, hcolor], ?_⟩
  rw [printChar_newline, ← hempty, List.map_append]
  exact hd.newline

theorem ShowsPage.char (hs : ShowsPage s color (front ++ [last])) (hlast : last.length ≤ numCols)
    {c : UInt8} (hnewline : c ≠ 0x0A) (hbackspace : c ≠ 0x08) :
    ShowsPage (s.printChar c) color
      (if last.length < numCols then front ++ [last ++ [c]] else front ++ [last, [c]]) := by
  obtain ⟨hempty, hcolor, hd⟩ := hs.displays
  have hput := hd.put (by decide : 0 < numCols) { character := c, color := s.color }
  rw [← printChar_other s hnewline hbackspace] at hput
  have hlength : (colored color last).length = last.length := List.length_map _
  by_cases hroom : last.length < numCols
  · rw [if_pos hroom]
    refine ⟨front, last ++ [c], rfl, by rw [printChar_color, hcolor], ?_⟩
    have hshown := hput.1 (by rw [hlength]; exact hroom)
    rw [hempty, hcolor] at hshown
    rw [colored, List.map_append]
    exact hshown
  · rw [if_neg hroom]
    refine ⟨front ++ [last], [c], by simp, by rw [printChar_color, hcolor], ?_⟩
    have hshown := hput.2 (by rw [hlength]; omega)
    rw [hempty, hcolor] at hshown
    rw [List.map_append]
    exact hshown

end Steps

/-- The cleared screen shows the empty page. -/
theorem showsPage_clear {s : Console} (hcol : s.col = 0) :
    ShowsPage s.printClear s.color (textRows 0x0A numCols []) := by
  obtain ⟨hcell, hrow, hcol', hcolor⟩ := printClear_spec s
  refine ⟨[], [], ?_, hcolor, ?_⟩
  · rw [textRows, List.splitOn_nil, List.flatMap_singleton, wrap_of_le (Nat.zero_le _)]
    rfl
  · refine ⟨?_, ?_, ?_⟩
    · intro r hr c hc
      rw [screen_cell, hcell _ ((Terminal.index_lt hc).mpr hr), Terminal.pageCell]
      cases r <;> rfl
    · rw [screen_row, hrow]
      rfl
    · rw [screen_col, hcol', hcol]
      rfl

/-- A text printed on the cleared screen. -/
theorem showsPage_printStr {s : Console} (hcol : s.col = 0) {str : List UInt8} (hnul : 0 ∉ str)
    (hbackspace : 0x08 ∉ str) :
    ShowsPage (printStr str s.printClear) s.color (textRows 0x0A numCols str) := by
  induction str using List.reverseRecOn with
  | nil => exact showsPage_clear hcol
  | append_singleton str c ih =>
    have hshown := ih (fun h => hnul (List.mem_append_left [c] h))
      fun h => hbackspace (List.mem_append_left [c] h)
    have hc : c ≠ 0x08 := fun h => hbackspace (by simp [h])
    obtain ⟨front, last, hrows, hlast, hnewline, hother⟩ :=
      exists_textRows_concat (0x0A : UInt8) (by decide : 0 < numCols) str
    rw [printStr_concat hnul]
    rw [hrows] at hshown
    by_cases hnl : c = 0x0A
    · rw [hnl, hnewline]
      exact hshown.newline
    · rw [hother c hnl]
      exact hshown.char hlast hnl hc

/-- Read through the last 25 rows of the page. -/
theorem ShowsPage.window {s : Console} {color : UInt8} {rows : List (List UInt8)}
    (hs : ShowsPage s color rows) :
    let window := rows.drop (rows.length - numRows)
    (∀ r < numRows, ∀ c < numCols, s.cell (numCols * r + c) =
      { character := (window[r]?.bind (·[c]?)).getD 0x20, color := color }) ∧
    s.row + 1 = window.length ∧ window.getLast?.map List.length = some s.col := by
  obtain ⟨front, last, rfl, -, hcell, hrow, hcol⟩ := hs
  intro window
  have hlength : (front ++ [last]).length = front.length + 1 := by simp
  have hwindow : window.length = min (front.length + 1) numRows := by
    rw [List.length_drop, hlength]
    omega
  refine ⟨?_, ?_, ?_⟩
  · intro r hr c hc
    have hshown := hcell r hr c hc
    have hpage : front.map (colored color) ++ [colored color last] =
        (front ++ [last]).map (colored color) := by simp
    rw [screen_cell, Terminal.pageCell, hpage, List.length_map, List.getElem?_map] at hshown
    rw [hshown, List.getElem?_drop]
    cases (front ++ [last])[(front ++ [last]).length - numRows + r]? with
    | none => rfl
    | some text =>
      simp only [Option.map_some, Option.bind_some, colored, List.getElem?_map]
      cases text[c]? <;> rfl
  · rw [hwindow]
    simpa using hrow
  · have hne : (front ++ [last]).length - numRows < (front ++ [last]).length := by
      rw [hlength]
      simp only [numRows]
      omega
    rw [List.getLast?_drop, if_neg (by omega), List.getLast?_concat, Option.map_some]
    simpa [colored] using hcol.symm

/-- After `print_str` on the cleared screen the buffer holds the last 25 rows of
the text, blank where there is no character, and the cursor is behind the last
character. -/
theorem screen_shows_end (m : Memory) (row : ℕ) (color : UInt8) {str : List UInt8}
    (hnul : 0 ∉ str) (hbackspace : 0x08 ∉ str) :
    let s := printStr str (printClear { memory := m, row := row, col := 0, color := color })
    let rows := textRows 0x0A numCols str
    let window := rows.drop (rows.length - numRows)
    (∀ r < numRows, ∀ c < numCols, s.cell (numCols * r + c) =
      { character := (window[r]?.bind (·[c]?)).getD 0x20, color := color }) ∧
    s.row + 1 = window.length ∧ window.getLast?.map List.length = some s.col := by
  have hshown := showsPage_printStr
    (s := { memory := m, row := row, col := 0, color := color }) rfl hnul hbackspace
  exact hshown.window

theorem screen_shows_end_two_lines :
    let s : Console := printStr [0x48, 0x69, 0x0A, 0x21]
      (printClear { memory := fun _ => 0, row := 0, col := 0, color := 0x0F })
    s.cell 1 = { character := 0x69, color := 0x0F } ∧
      s.cell 80 = { character := 0x21, color := 0x0F } ∧
      s.cell 81 = { character := 0x20, color := 0x0F } ∧ s.row = 1 ∧ s.col = 1 := by
  have hnul : (0 : UInt8) ∉ [0x48, 0x69, 0x0A, 0x21] := by decide
  have hbackspace : (0x08 : UInt8) ∉ [0x48, 0x69, 0x0A, 0x21] := by decide
  obtain ⟨hcell, hrow, hcol⟩ := screen_shows_end (fun _ => 0) 0 0x0F hnul hbackspace
  have hrows : textRows (0x0A : UInt8) numCols [0x48, 0x69, 0x0A, 0x21] = [[0x48, 0x69], [0x21]] := by
    have hfirst : wrap numCols [(0x48 : UInt8), 0x69] = [[0x48, 0x69]] := wrap_of_le (by decide)
    have hsecond : wrap numCols [(0x21 : UInt8)] = [[0x21]] := wrap_of_le (by decide)
    simp [textRows, List.splitOn_cons_eq_if_modifyHead, hfirst, hsecond]
  simp only [hrows] at hcell hrow hcol
  generalize (printStr _ _ : Console) = s at hcell hrow hcol ⊢
  have hrow : s.row + 1 = 2 := hrow
  have hcol : some 1 = some s.col := hcol
  refine ⟨hcell 0 (by decide) 1 (by decide), hcell 1 (by decide) 0 (by decide),
    hcell 1 (by decide) 1 (by decide), ?_, ?_⟩
  · exact Nat.succ.inj hrow
  · exact (Option.some.inj hcol).symm

end EtyOS.Console
