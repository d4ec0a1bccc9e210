import EtyOS.Library.Scrolling
import EtyOS.Console.InputLines
import EtyOS.Console.Numerals

/-!
# The text on the screen

What is printed on a cleared screen and what is typed behind it make one text, and the
screen shows its end. Backspaces of the one who types take characters back from the text;
a row that they leave stays on the screen, empty.
-/

namespace EtyOS

open Library

namespace Console

/-- The characters on the screen are the end of the text, laid out in rows of 80, and the
cursor is behind the last one; below it at most four rows have been left free. -/
def ShowsText (s : Console) (text : List UInt8) : Prop :=
  ∃ front last top, PageOf 0x0A numCols text front last ∧
    Terminal.Scrolled numCols numRows 4 ScreenChar.character 0x20 s.screen front last top

/-- On a string with a NUL the loop stops there. -/
theorem printStr_eq_emit (str : List UInt8) (s : Console) :
    printStr str s = emit (str.takeWhile (· ≠ 0)) s := by
  induction str generalizing s with
  | nil => rfl
  | cons c str ih =>
    rw [printStr_cons]
    by_cases hc : c = 0
    · rw [if_pos hc, List.takeWhile_cons_of_neg (by simpa using hc), emit_nil]
    · rw [if_neg hc, List.takeWhile_cons_of_pos (by simpa using hc), emit_cons, ih]

namespace ShowsText

variable {s : Console} {text : List UInt8}

theorem printClear (hcol : s.col = 0) : s.printClear.ShowsText [] := by
  obtain ⟨hcell, hrow, hcol', -⟩ := printClear_spec s
  refine ⟨[], [], 0, pageOf_nil, Terminal.scrolled_blank (fun k hk => ?_) ?_ ?_ (by decide)⟩
  · rw [screen_cell, hcell k hk]
    rfl
  · rw [screen_row, hrow]
  · rw [screen_col, hcol', hcol]

theorem printNewline (h : s.ShowsText text) : s.printNewline.ShowsText (text ++ [0x0A]) := by
  obtain ⟨front, last, top, hpage, hshown⟩ := h
  obtain ⟨top', hnewline⟩ := hshown.newline s.empty rfl
  refine ⟨front ++ [last], [], top', hpage.newline, ?_⟩
  rw [printNewline_screen]
  exact hnewline

theorem printChar (h : s.ShowsText text) {c : UInt8} (hc : c ≠ 0x08) :
    (s.printChar c).ShowsText (text ++ [c]) := by
  by_cases hnewline : c = 0x0A
  · subst hnewline
    exact h.printNewline
  · obtain ⟨front, last, top, hpage, hshown⟩ := h
    obtain ⟨front', last', top', hrows, hput⟩ := hshown.put hpage.room
      (by decide) (by decide) s.empty { character := c, color := s.color } rfl
    refine ⟨front ++ front', last', top', hpage.append (by simpa using Ne.symm hnewline) hrows, ?_⟩
    rw [printChar_other s hnewline hc]
    exact hput

theorem emit (h : s.ShowsText text) {str : List UInt8} (hstr : 0x08 ∉ str) :
    (Console.emit str s).ShowsText (text ++ str) := by
  induction str generalizing s text with
  | nil =>
    rw [List.append_nil]
    exact h
  | cons c str ih =>
    obtain ⟨hc, hrest⟩ := not_or.mp (List.mem_cons.not.mp hstr)
    rw [emit_cons, ← List.singleton_append, ← List.append_assoc]
    exact ih (h.printChar (Ne.symm hc)) hrest

end ShowsText

end Console

namespace LineEditor

variable {s : Console} {buffer : Memory} {text typed : List UInt8} {e : LineEditor}

/-- Behind the prompt stand `i` characters. The prompt has stayed where it was, or it has gone
up no further than the rows of the line ask for. -/
structure Settled (s : Console) (e : LineEditor) : Prop where
  prompt : ∃ prompt, e.console.screen.cursor numCols = prompt + e.i ∧
    (prompt = s.screen.cursor numCols ∨ numCols * (numRows - 1) ≤ prompt + 255)
  row : e.console.screen.col < numCols ∨ 0 < e.i ∨ e.console.screen.row = s.screen.row

theorem Settled.backspace (h : Settled s e) (he : Echoed s e) : Settled s (e.key 0x08) := by
  by_cases hi : 0 < e.i
  · obtain ⟨prompt, hcursor, hprompt⟩ := h.prompt
    obtain ⟨-, -, -, _, _, hecho⟩ := he
    obtain ⟨hback, -, -⟩ := Terminal.stepBack_cursor hecho.row hecho.col (by omega)
    rw [key_backspace hi]
    constructor
    · refine ⟨prompt, ?_, hprompt⟩
      rw [Console.printChar_backspace]
      change (e.console.screen.stepBack numCols).cursor numCols = prompt + (e.i - 1)
      omega
    · left
      have hcol := hecho.col
      rw [Console.printChar_backspace]
      change (e.console.screen.stepBack numCols).col < numCols
      unfold Terminal.stepBack
      split
      · exact (by decide : numCols - 1 < numCols)
      · split
        · change e.console.screen.col - 1 < numCols
          omega
        · have hzero : e.console.screen.col = 0 := by omega
          rw [hzero]
          decide
  · rw [key_backspace_empty (by omega)]
    exact h

theorem Settled.char (h : Settled s e) (he : Echoed s e) (hroom : e.i < 255) {c : UInt8}
    (hnewline : c ≠ 0x0A) (hbackspace : c ≠ 0x08) : Settled s (e.key c) := by
  obtain ⟨prompt, hcursor, hprompt⟩ := h.prompt
  obtain ⟨-, -, -, _, _, hecho⟩ := he
  rw [key_char hbackspace]
  refine ⟨?_, .inr (.inl (Nat.succ_pos _))⟩
  rw [Console.printChar_other _ hnewline hbackspace]
  rcases Terminal.put_cursor e.console.empty { character := c, color := e.console.color }
    hecho.row hecho.col with hput | hput
  · exact ⟨prompt, by rw [hput, hcursor]; rfl, hprompt⟩
  · refine ⟨numCols * (numRows - 1) - e.i, ?_, .inr ?_⟩
    · rw [hput]
      simp only [numCols, numRows]
      omega
    · simp only [numCols, numRows]
      omega

theorem AtHead.settled {e₀ : LineEditor} (hstart : Echoed s e₀) (hfirst : Settled s e₀)
    (h : AtHead 256 e₀ typed e) : Settled s e := by
  induction h with
  | start => exact hfirst
  | @next keys e c hhead hroom hc ih =>
    have hecho := hhead.echoed hstart
    by_cases hbackspace : c = 0x08
    · subst hbackspace
      exact ih.backspace hecho
    · exact ih.char hecho hroom (fun hnewline => hc (.inl hnewline)) hbackspace

theorem AtHead.holds {e₀ : LineEditor} (hstart : e₀.Holds []) (h : AtHead 256 e₀ typed e) :
    e.Holds typed := by
  induction h with
  | start => exact hstart
  | next _ hroom _ ih => exact ih.key hroom _

theorem Holds.eq_range (h : e.Holds typed) (hshort : e.i ≤ 255) :
    edited typed = (List.range e.i).map e.buffer := by
  apply List.ext_getElem?
  intro j
  rw [List.getElem?_map]
  rcases Nat.lt_or_ge j e.i with hj | hj
  · have hin : j < (edited typed).length := h.index ▸ hj
    rw [List.getElem?_range hj, Option.map_some, h.buffer j (by omega),
      List.getElem?_eq_getElem hin]
    rfl
  · rw [List.getElem?_eq_none (h.index ▸ hj), List.getElem?_eq_none (by simpa using hj)]
    rfl

/-- At every moment of `read_input` the screen shows the text that was there and, behind it,
what has been typed and not taken back. -/
theorem shows_typed (h : s.ShowsText text) (hhead : AtHead 256 (start 256 s buffer) typed e) :
    e.console.ShowsText (text ++ edited typed) := by
  obtain ⟨front, last, top, hpage, hshown⟩ := h
  have hcol : s.screen.col ≤ numCols := hshown.col.trans_le hpage.room
  have hecho₀ : Echoed s (start 256 s buffer) :=
    echoed_start buffer hshown.room hcol hshown.blank_after
  have hsettled : Settled s e := hhead.settled hecho₀ ⟨⟨_, rfl, .inl rfl⟩, .inr (.inr rfl)⟩
  have hecho := hhead.echoed hecho₀
  obtain ⟨-, hshort, -, prompt, lifted, hechoes⟩ := hecho
  have htext : e.text.map ScreenChar.character = edited typed := by
    rw [(hhead.holds (holds_start s buffer)).eq_range hshort, LineEditor.text, List.map_map]
    rfl
  have hback : s.screen.row ≤ e.console.screen.row + lifted :=
    hechoes.row_le (by rw [length_text]; exact hsettled.row)
  have hlow : lifted = 0 ∨ numRows ≤ e.console.screen.row + 1 + 4 := by
    refine hechoes.low (by decide) ?_
    obtain ⟨prompt', hcursor', hprompt'⟩ := hsettled.prompt
    have hcursor := hechoes.cursor
    rw [length_text] at hcursor
    have hsame : prompt = prompt' := by omega
    rw [hsame]
    simp only [numCols, numRows] at hprompt' ⊢
    omega
  obtain ⟨front', last', hrows, htyped⟩ := hshown.echoes hpage.room hechoes hback hlow
  rw [htext] at hrows
  have hline : 0x0A ∉ edited typed := fun hnl =>
    hhead.not_isEnter _ (mem_of_mem_edited hnl) (.inl rfl)
  exact ⟨front ++ front', last', top + lifted, hpage.append hline hrows, htyped⟩

end LineEditor

end EtyOS
