import EtyOS.Console.ScreenSpec

/-!
# `read_input`

The line editor keeps the line in `buffer` and echoes it on the screen, one
`print_char` a character. The characters are those `get_char` gives out, oldest
first; the loop waits when they run out. The invariant ties the first `i`
characters of the buffer to the characters between the prompt and the cursor.
-/

namespace EtyOS

open Library MemoryBlock

/-- The variables of `read_input`: the console, the buffer and the index. -/
structure LineEditor where
  console : Console
  buffer : Memory
  i : ℕ

/-- `c == '\n' || c == '\r'`. -/
def isEnter (c : UInt8) : Prop := c = 0x0A ∨ c = 0x0D

instance (c : UInt8) : Decidable (isEnter c) := inferInstanceAs (Decidable (_ ∨ _))

namespace LineEditor

/-- The loop body for a character that does not end the line. -/
def key (c : UInt8) (e : LineEditor) : LineEditor :=
  if c = 0x08 then
    if 0 < e.i then
      { console := e.console.printChar 0x08
        buffer := Function.update e.buffer (e.i - 1) 0
        i := e.i - 1 }
    else e
  else
    { console := e.console.printChar c
      buffer := Function.update e.buffer e.i c
      i := e.i + 1 }

/-- The loop, and the characters it leaves; `none` when it waits for more. -/
def loop (bufferSize : ℕ) : List UInt8 → LineEditor → Option (LineEditor × List UInt8)
  | [], e => if e.i < bufferSize - 1 then none else some (e, [])
  | c :: keys, e =>
    if e.i < bufferSize - 1 then
      if isEnter c then some (e, keys) else loop bufferSize keys (e.key c)
    else some (e, c :: keys)

/-- What `read_input` starts from. -/
def start (bufferSize : ℕ) (console : Console) (buffer : Memory) : LineEditor where
  console := console
  buffer := memoryZero buffer 0 bufferSize
  i := 0

end LineEditor

/-- `read_input`, with a positive `buffer_size`: the console and the buffer it
leaves, and the characters it has not taken. -/
def readInput (bufferSize : ℕ) (console : Console) (buffer : Memory) (keys : List UInt8) :
    Option (Console × Memory × List UInt8) :=
  (LineEditor.loop bufferSize keys (LineEditor.start bufferSize console buffer)).map fun r =>
    (r.1.console, Function.update r.1.buffer r.1.i 0, r.2)

namespace LineEditor

/-- At the head of the loop, after the characters of the list. -/
inductive AtHead (bufferSize : ℕ) (e₀ : LineEditor) : List UInt8 → LineEditor → Prop
  | start : AtHead bufferSize e₀ [] e₀
  | next {keys : List UInt8} {e : LineEditor} {c : UInt8} :
    AtHead bufferSize e₀ keys e → e.i < bufferSize - 1 → ¬isEnter c →
      AtHead bufferSize e₀ (keys ++ [c]) (e.key c)

theorem AtHead.cons {bufferSize : ℕ} {e₀ e : LineEditor} {c : UInt8} {keys : List UInt8}
    (hroom : e₀.i < bufferSize - 1) (hc : ¬isEnter c)
    (h : AtHead bufferSize (e₀.key c) keys e) : AtHead bufferSize e₀ (c :: keys) e := by
  induction h with
  | start => exact .next .start hroom hc
  | next _ hroom' hc' ih => exact .next ih hroom' hc'

theorem AtHead.not_isEnter {bufferSize : ℕ} {e₀ e : LineEditor} {keys : List UInt8}
    (h : AtHead bufferSize e₀ keys e) : ∀ c ∈ keys, ¬isEnter c := by
  induction h with
  | start => simp
  | next _ _ hc ih =>
    intro c' hc'
    rcases List.mem_append.mp hc' with hc' | hc'
    · exact ih c' hc'
    · rw [List.mem_singleton.mp hc']
      exact hc

/-- The loop ends in a state at its head, on Enter or on a full buffer. -/
theorem loop_atHead {bufferSize : ℕ} {keys rest : List UInt8} {e₀ e : LineEditor}
    (h : loop bufferSize keys e₀ = some (e, rest)) :
    ∃ typed, AtHead bufferSize e₀ typed e ∧
      (¬e.i < bufferSize - 1 ∧ keys = typed ++ rest ∨
        e.i < bufferSize - 1 ∧ ∃ c, isEnter c ∧ keys = typed ++ c :: rest) := by
  induction keys generalizing e₀ with
  | nil =>
    rw [loop] at h
    split at h
    · cases h
    · cases h
      exact ⟨[], .start, .inl ⟨by assumption, rfl⟩⟩
  | cons c keys ih =>
    rw [loop] at h
    split at h
    · rename_i hroom
      split at h
      · rename_i hc
        cases h
        exact ⟨[], .start, .inr ⟨hroom, c, hc, rfl⟩⟩
      · rename_i hc
        obtain ⟨typed, hhead, hends⟩ := ih h
        refine ⟨c :: typed, hhead.cons hroom hc, ?_⟩
        rcases hends with ⟨hfull, rfl⟩ | ⟨hmore, c', hc', rfl⟩
        · exact .inl ⟨hfull, rfl⟩
        · exact .inr ⟨hmore, c', hc', rfl⟩
    · rename_i hfull
      cases h
      exact ⟨[], .start, .inl ⟨hfull, rfl⟩⟩

section Echo

/-- The first `i` characters of the buffer, as they are printed. -/
def text (e : LineEditor) : List ScreenChar :=
  (List.range e.i).map fun j => { character := e.buffer j, color := e.console.color }

@[simp] theorem length_text (e : LineEditor) : e.text.length = e.i := by
  rw [text, List.length_map, List.length_range]

variable {c : UInt8} {e : LineEditor}

theorem key_char (hc : c ≠ 0x08) :
    e.key c =
      { console := e.console.printChar c, buffer := Function.update e.buffer e.i c, i := e.i + 1 } :=
  if_neg hc

theorem key_backspace (hi : 0 < e.i) :
    e.key 0x08 =
      { console := e.console.printChar 0x08, buffer := Function.update e.buffer (e.i - 1) 0,
        i := e.i - 1 } := by
  rw [key, if_pos rfl, if_pos hi]

theorem key_backspace_empty (hi : e.i = 0) : e.key 0x08 = e := by
  rw [key, if_pos rfl, if_neg (by omega)]

/-- A character of the text is not touched by what is written behind it. -/
theorem map_range_update (buffer : Memory) (color : UInt8) {n k : ℕ} (hk : n ≤ k) (c : UInt8) :
    ((List.range n).map fun j =>
        ({ character := Function.update buffer k c j, color := color } : ScreenChar)) =
      (List.range n).map fun j => { character := buffer j, color := color } := by
  apply List.map_congr_left
  intro j hj
  rw [Function.update_of_ne]
  have := List.mem_range.mp hj
  omega

theorem text_char (hc : c ≠ 0x08) :
    (e.key c).text = e.text ++ [{ character := c, color := e.console.color }] := by
  rw [key_char hc, text, text]
  simp only [Console.printChar_color, List.range_succ, List.map_append, List.map_cons,
    List.map_nil, Function.update_self]
  rw [map_range_update _ _ le_rfl]

theorem text_backspace (hi : 0 < e.i) : (e.key 0x08).text = e.text.dropLast := by
  obtain ⟨n, hn⟩ := Nat.exists_eq_succ_of_ne_zero (by omega : e.i ≠ 0)
  rw [key_backspace hi, text, text]
  simp only [Console.printChar_color, hn, Nat.succ_sub_one]
  rw [map_range_update _ _ le_rfl, List.range_succ, List.map_append, List.map_cons, List.map_nil,
    List.dropLast_concat]

/-- The line between the prompt and the cursor is the one in the buffer, and
there is nothing behind either. -/
structure Echoed (console : Console) (e : LineEditor) : Prop where
  color : e.console.color = console.color
  short : e.i ≤ 255
  rest : ∀ j, e.i ≤ j → j < 256 → e.buffer j = 0
  shown : ∃ prompt lifted,
    Terminal.Echoes numCols numRows (fun ch : ScreenChar => ch.character = 0x20) console.screen
      e.console.screen e.text prompt lifted

variable {console : Console}

theorem echoed_start (buffer : Memory) (hrow : console.row < numRows)
    (hcol : console.col ≤ numCols)
    (hblank : ∀ k, numCols * console.row + console.col ≤ k → k < numCols * numRows →
      (console.cell k).character = 0x20) :
    Echoed console (start 256 console buffer) where
  color := rfl
  short := Nat.zero_le _
  rest := by
    intro j _ hj
    simp only [start, memoryZero, Memory.fill_apply]
    rw [if_pos (by omega)]
  shown := ⟨_, 0, Terminal.echoes_start hrow hcol hblank⟩

/-- A backspace takes the last character from the screen and from the buffer. -/
theorem Echoed.backspace (he : Echoed console e) (hi : 0 < e.i) : Echoed console (e.key 0x08) := by
  obtain ⟨hcolor, hshort, hrest, prompt, lifted, hshown⟩ := he
  have hne : e.text ≠ [] := by
    intro h
    have := congrArg List.length h
    rw [length_text, List.length_nil] at this
    omega
  have herased := hshown.erase (rfl : e.console.empty.character = 0x20) hne
  rw [← Console.printChar_backspace, ← text_backspace hi] at herased
  rw [key_backspace hi] at herased ⊢
  exact
    { color := (Console.printChar_color _ _).trans hcolor
      short := by
        simp only
        omega
      rest := by
        intro j hj hj'
        simp only at hj ⊢
        by_cases hlast : j = e.i - 1
        · rw [hlast, Function.update_self]
        · rw [Function.update_of_ne hlast]
          exact hrest j (by omega) hj'
      shown := ⟨prompt, lifted, herased⟩ }

/-- Any other character is added to both. -/
theorem Echoed.char (he : Echoed console e) (hroom : e.i < 255) (hnewline : c ≠ 0x0A)
    (hbackspace : c ≠ 0x08) : Echoed console (e.key c) := by
  obtain ⟨hcolor, hshort, hrest, prompt, lifted, hshown⟩ := he
  have hfits : e.text.length ≤ numCols * (numRows - 1) := by
    rw [length_text]
    simp only [numCols, numRows]
    omega
  obtain ⟨prompt', lifted', hput⟩ := hshown.put (by decide : 0 < numCols)
    (rfl : e.console.empty.character = 0x20) hfits { character := c, color := e.console.color }
  rw [← Console.printChar_other _ hnewline hbackspace, ← text_char hbackspace] at hput
  rw [key_char hbackspace] at hput ⊢
  exact
    { color := (Console.printChar_color _ _).trans hcolor
      short := hroom
      rest := by
        intro j hj hj'
        simp only at hj ⊢
        rw [Function.update_of_ne (by omega)]
        exact hrest j (by omega) hj'
      shown := ⟨prompt', lifted', hput⟩ }

/-- One more character keeps screen and buffer in step. -/
theorem Echoed.key (he : Echoed console e) (hroom : e.i < 255) (hc : ¬isEnter c) :
    Echoed console (e.key c) := by
  by_cases hbackspace : c = 0x08
  · subst hbackspace
    by_cases hi : 0 < e.i
    · exact he.backspace hi
    · rw [key_backspace_empty (by omega)]
      exact he
  · exact he.char hroom (fun h => hc (.inl h)) hbackspace

theorem AtHead.echoed {e₀ : LineEditor} {keys : List UInt8} (hstart : Echoed console e₀)
    (h : AtHead 256 e₀ keys e) : Echoed console e := by
  induction h with
  | start => exact hstart
  | next _ hroom hc ih => exact ih.key hroom hc

/-- At every iteration the `i` characters from the prompt on are those of the
buffer, blanks follow them, the cursor is behind them and the rest of the
buffer is zero. The prompt moves up with the screen when that scrolls: it was
`lifted` rows further down, and so was everything before it. -/
theorem echo_matches_buffer (console : Console) (buffer : Memory) (hrow : console.row < 25)
    (hcol : console.col ≤ 80)
    (hblank : ∀ k, 80 * console.row + console.col ≤ k → k < 80 * 25 →
      (console.cell k).character = 0x20)
    {keys : List UInt8} {e : LineEditor} (h : AtHead 256 (start 256 console buffer) keys e) :
    ∃ prompt lifted,
      prompt + 80 * lifted = 80 * console.row + console.col ∧
      (∀ k < prompt, e.console.cell k = console.cell (k + 80 * lifted)) ∧
      (∀ j < e.i, e.console.cell (prompt + j) =
        { character := e.buffer j, color := console.color }) ∧
      (∀ k, prompt + e.i ≤ k → k < 80 * 25 → (e.console.cell k).character = 0x20) ∧
      80 * e.console.row + e.console.col = prompt + e.i ∧ e.console.row < 25 ∧
      e.console.col ≤ 80 ∧ e.i ≤ 255 ∧ ∀ j, e.i ≤ j → j < 256 → e.buffer j = 0 := by
  obtain ⟨hcolor, hshort, hrest, prompt, lifted, hshown⟩ :=
    h.echoed (echoed_start buffer hrow hcol hblank)
  have hcursor := hshown.cursor
  rw [length_text] at hcursor
  refine ⟨prompt, lifted, hshown.place, hshown.before, ?_, ?_, hcursor, hshown.row, hshown.col,
    hshort, hrest⟩
  · intro j hj
    have htyped := hshown.typed j (by rw [length_text]; exact hj)
    rw [text, List.getElem?_map, List.getElem?_range hj, hcolor] at htyped
    exact (Option.some.inj htyped).symm
  · intro k hk hk'
    exact hshown.after k (by rw [hcursor]; exact hk) hk'

/-- Two characters typed at the last position but one: the screen scrolls for
the second. -/
theorem echo_matches_buffer_at_corner :
    let console : Console := { memory := fun _ => 0x20, row := 24, col := 79, color := 0x0F }
    ∃ e, AtHead 256 (start 256 console fun _ => 0) [0x61, 0x62] e ∧
      ∃ prompt lifted, prompt + 80 * lifted = 1999 ∧
        (∀ j < e.i, e.console.cell (prompt + j) = { character := e.buffer j, color := 0x0F }) ∧
        80 * e.console.row + e.console.col = prompt + e.i := by
  intro console
  set e₀ := start 256 console fun _ => 0
  have hfirst : AtHead 256 e₀ ([] ++ [0x61]) (e₀.key 0x61) :=
    .next .start (by decide) (by decide)
  have hroom : (e₀.key 0x61).i < 256 - 1 := by
    rw [key_char (by decide)]
    decide
  have hsecond : AtHead 256 e₀ [0x61, 0x62] ((e₀.key 0x61).key 0x62) :=
    .next hfirst hroom (by decide)
  obtain ⟨prompt, lifted, hplace, -, htyped, -, hcursor, -⟩ :=
    echo_matches_buffer console (fun _ => 0) (by decide) (by decide) (fun _ _ _ => rfl) hsecond
  exact ⟨_, hsecond, prompt, lifted, hplace, htyped, hcursor⟩

end Echo

end LineEditor

end EtyOS
