import EtyOS.Console.ScreenSpec

/-!
# What a clear forgets

After `print_clear` the window and the row are the same whatever was there, and
`print_str` looks at nothing but the window, the cursor and the colour. The
column survives the clear.
-/

namespace EtyOS.Console

open Library

/-- The same 80x25 characters on the screen and the same cursor. -/
def SameScreen (s t : Console) : Prop := s.screen.Agrees numCols numRows t.screen

variable {s t : Console}

theorem empty_eq (hcolor : s.color = t.color) : s.empty = t.empty := by
  rw [empty, empty, hcolor]

/-- What a character does to the screen depends on the screen and the colour. -/
theorem SameScreen.printChar (hsame : SameScreen s t) (hcolor : s.color = t.color) (c : UInt8) :
    SameScreen (s.printChar c) (t.printChar c) := by
  unfold SameScreen
  by_cases hnewline : c = 0x0A
  · rw [hnewline, printChar_newline, printChar_newline, empty_eq hcolor]
    exact hsame.newline
  · by_cases hbackspace : c = 0x08
    · rw [hbackspace, printChar_backspace, printChar_backspace, empty_eq hcolor]
      exact hsame.erase
    · rw [printChar_other s hnewline hbackspace, printChar_other t hnewline hbackspace,
        empty_eq hcolor, hcolor]
      exact hsame.put _

theorem SameScreen.printStr (hsame : SameScreen s t) (hcolor : s.color = t.color)
    (str : List UInt8) : SameScreen (printStr str s) (printStr str t) := by
  induction str generalizing s t with
  | nil => exact hsame
  | cons c str ih =>
    rw [printStr_cons, printStr_cons]
    split
    · exact hsame
    · apply ih (hsame.printChar hcolor c)
      rw [printChar_color, printChar_color, hcolor]

/-- Two cleared screens differ in the column at most. -/
theorem sameScreen_printClear (hcolor : s.color = t.color) :
    SameScreen s.printClear t.printClear ↔ s.col = t.col := by
  obtain ⟨hcell, hrow, hcol, -⟩ := printClear_spec s
  obtain ⟨hcell', hrow', hcol', -⟩ := printClear_spec t
  constructor
  · intro hsame
    have hcursor := hsame.col
    rwa [screen_col, screen_col, hcol, hcol'] at hcursor
  · intro hsame
    constructor
    · intro k hk
      rw [screen_cell, screen_cell, hcell k hk, hcell' k hk, empty_eq hcolor]
    · rw [screen_row, screen_row, hrow, hrow']
    · rw [screen_col, screen_col, hcol, hcol', hsame]

/-- Of two consoles with the same colour, `print_clear` makes the same screen
for whatever is printed next exactly when their columns are the same. -/
theorem printClear_forgets_iff (s t : Console) (hcolor : s.color = t.color) :
    (∀ str : List UInt8, SameScreen (printStr str s.printClear) (printStr str t.printClear)) ↔
      s.col = t.col := by
  have hcleared : s.printClear.color = t.printClear.color := by
    rw [(printClear_spec s).2.2.2, (printClear_spec t).2.2.2, hcolor]
  rw [← sameScreen_printClear hcolor]
  constructor
  · intro hsame
    have hempty := hsame []
    rwa [printStr_nil, printStr_nil] at hempty
  · intro hsame str
    exact SameScreen.printStr hsame hcleared str

/-- The console at the start, and after a newline and one character. -/
theorem printClear_forgets_boot :
    let s : Console := { memory := fun _ => 0, row := 0, col := 0, color := 0x0F }
    let t := s.printNewline
    (∀ str : List UInt8, SameScreen (printStr str s.printClear) (printStr str t.printClear)) ↔
      s.col = t.col := by
  intro s t
  exact printClear_forgets_iff s t (printNewline_color s).symm

/-- At the start and after one character, the cleared screens have different columns. -/
theorem printClear_keeps_column :
    let s : Console := { memory := fun _ => 0, row := 0, col := 0, color := 0x0F }
    let t := s.printChar 0x61
    s.color = t.color ∧ s.col = 0 ∧ t.col = 1 ∧
      ¬SameScreen (printStr [] s.printClear) (printStr [] t.printClear) := by
  intro s t
  have hcolor : s.color = t.color := (printChar_color s 0x61).symm
  refine ⟨hcolor, rfl, rfl, fun hsame => ?_⟩
  have hcol : s.col = t.col := (sameScreen_printClear hcolor).mp hsame
  exact absurd hcol (by decide)

end EtyOS.Console
