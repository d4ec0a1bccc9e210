import EtyOS.Library.Terminal

/-!
# A text that scrolls through a window

`PageOf` says how a text lies in rows of fixed width: line by line, each line in full
rows and a last one. A row that the cursor has gone back over stays behind empty, so a
line of full rows may end in an empty one. `Scrolled` says that the window shows such a
page from some row on; a newline and whatever is typed behind a prompt, with the
backspaces, keep the window on the page.
-/

namespace EtyOS.Library

section Page

variable {α : Type} {nl : α} {w : ℕ} {text line more last last' : List α}
  {front front' : List (List α)}

/-- A line in rows of `w` cells, all of them full but the last. -/
structure RowsOf (w : ℕ) (line : List α) (front : List (List α)) (last : List α) : Prop where
  text : front.flatten ++ last = line
  full : ∀ row ∈ front, row.length = w
  room : last.length ≤ w

/-- The rows of a text whose lines end in `nl`, with the last row apart. -/
inductive PageOf (nl : α) (w : ℕ) : List α → List (List α) → List α → Prop
  | line {line last : List α} {front : List (List α)} :
    nl ∉ line → RowsOf w line front last → PageOf nl w line front last
  | next {text last line last' : List α} {front front' : List (List α)} :
    PageOf nl w text front last → nl ∉ line → RowsOf w line front' last' →
      PageOf nl w (text ++ nl :: line) (front ++ last :: front') last'

theorem rowsOf_nil : RowsOf w ([] : List α) [] [] := ⟨rfl, by simp, Nat.zero_le _⟩

theorem RowsOf.append (h : RowsOf w line front last) (h' : RowsOf w (last ++ more) front' last') :
    RowsOf w (line ++ more) (front ++ front') last' where
  text := by rw [List.flatten_append, List.append_assoc, h'.text, ← List.append_assoc, h.text]
  full := fun row hrow => (List.mem_append.mp hrow).elim (h.full row) (h'.full row)
  room := h'.room

/-- Every way of counting off full rows is one. -/
theorem exists_rowsOf (line : List α) {q : ℕ} (hq : w * q ≤ line.length) (hroom : line.length ≤ w * q + w) :
    ∃ front last, RowsOf w line front last ∧ front.length = q := by
  induction q generalizing line with
  | zero => exact ⟨[], line, ⟨rfl, by simp, by omega⟩, rfl⟩
  | succ q ih =>
    rw [Nat.mul_succ] at hq hroom
    have hlength : (line.drop w).length = line.length - w := List.length_drop
    obtain ⟨front, last, hrows, rfl⟩ := ih (line.drop w) (by omega) (by omega)
    refine ⟨line.take w :: front, last, ⟨?_, ?_, hrows.room⟩, rfl⟩
    · rw [List.flatten_cons, List.append_assoc, hrows.text, List.take_append_drop]
    · intro row hrow
      rcases List.mem_cons.mp hrow with rfl | hrow
      · rw [List.length_take]
        omega
      · exact hrows.full row hrow

/-- The cells of the rows, one row after the other, are those of the text. -/
theorem RowsOf.getElem? (h : RowsOf w text front last) (j : ℕ) {c : ℕ} (hc : c < w) :
    ((front ++ [last])[j]?).bind (·[c]?) = text[w * j + c]? := by
  induction front generalizing text j with
  | nil =>
    have htext : last = text := h.text
    subst htext
    cases j with
    | zero => simp
    | succ j =>
      have hroom := h.room
      have hpast : last.length ≤ w * (j + 1) + c := by
        rw [Nat.mul_succ]
        omega
      simp [List.getElem?_eq_none hpast]
  | cons row front ih =>
    obtain ⟨hrow, hfull⟩ := List.forall_mem_cons.mp h.full
    obtain ⟨rest, rfl⟩ : ∃ rest, text = row ++ rest := ⟨front.flatten ++ last, by
      rw [← h.text, List.flatten_cons, List.append_assoc]⟩
    have hrest : RowsOf w rest front last :=
      ⟨List.append_cancel_left (by rw [← List.append_assoc, ← List.flatten_cons, h.text]),
        hfull, h.room⟩
    cases j with
    | zero =>
      simp only [List.cons_append, List.getElem?_cons_zero, Option.bind_some, Nat.mul_zero,
        Nat.zero_add]
      rw [List.getElem?_append_left (by omega)]
    | succ j =>
      have hnext : w * (j + 1) + c = row.length + (w * j + c) := by
        rw [Nat.mul_succ, hrow]
        omega
      rw [List.cons_append, List.getElem?_cons_succ, ih hrest, hnext,
        List.getElem?_append_right (by omega), Nat.add_sub_cancel_left]

theorem PageOf.room (h : PageOf nl w text front last) : last.length ≤ w := by
  cases h with
  | line _ hrows => exact hrows.room
  | next _ _ hrows => exact hrows.room

theorem pageOf_nil : PageOf nl w [] [] [] := .line (by simp) rowsOf_nil

theorem PageOf.newline (h : PageOf nl w text front last) :
    PageOf nl w (text ++ [nl]) (front ++ [last]) [] := .next h (by simp) rowsOf_nil

/-- What is written behind the text goes on in its last row. -/
theorem PageOf.append (h : PageOf nl w text front last) (hmore : nl ∉ more)
    (hrows : RowsOf w (last ++ more) front' last') :
    PageOf nl w (text ++ more) (front ++ front') last' := by
  cases h with
  | line hline hrows₀ =>
    exact .line (fun hnl => (List.mem_append.mp hnl).elim hline hmore) (hrows₀.append hrows)
  | next habove hline hrows₀ =>
    rw [List.append_assoc, List.append_assoc, List.cons_append, List.cons_append]
    exact .next habove (fun hnl => (List.mem_append.mp hnl).elim hline hmore)
      (hrows₀.append hrows)

end Page

namespace Terminal

variable {γ α : Type} {w h slack : ℕ} {char : γ → α} {blank : α} {start t : Terminal γ}
  {front : List (List α)} {last : List α} {top : ℕ} {text : List γ} {prompt lifted : ℕ}

/-- The window shows the page from row `top` on, and the cursor is at its end. Once
something has scrolled off, at most `slack` rows are left blank below the cursor. -/
structure Scrolled (w h slack : ℕ) (char : γ → α) (blank : α) (t : Terminal γ)
    (front : List (List α)) (last : List α) (top : ℕ) : Prop where
  cell : ∀ r < h, ∀ c < w, char (t.cell (w * r + c)) =
    (((front ++ [last])[top + r]?).bind (·[c]?)).getD blank
  row : top + t.row = front.length
  col : t.col = last.length
  room : t.row < h
  low : top = 0 ∨ h ≤ t.row + 1 + slack

/-- An empty window with the cursor at the top left. -/
theorem scrolled_blank (hcell : ∀ k < w * h, char (t.cell k) = blank) (hrow : t.row = 0)
    (hcol : t.col = 0) (hh : 0 < h) : Scrolled w h slack char blank t [] [] 0 where
  cell := by
    intro r hr c hc
    rw [hcell _ ((index_lt hc).mpr hr), Nat.zero_add]
    cases r <;> rfl
  row := by rw [hrow, List.length_nil]
  col := hcol
  room := by omega
  low := .inl rfl

theorem Scrolled.newline (hs : Scrolled w h slack char blank t front last top)
    (empty : γ) (hempty : char empty = blank) :
    ∃ top', Scrolled w h slack char blank (t.newline w h empty) (front ++ [last]) [] top' := by
  obtain ⟨hcell, hrow, hcol, hroom, hlow⟩ := hs
  have hlength : (front ++ [last]).length = front.length + 1 := by simp
  by_cases hbelow : t.row < h - 1
  · rw [Terminal.newline, if_pos hbelow]
    exact
      ⟨top,
        { cell := by
            intro r hr c hc
            rw [bind_getElem?_concat_nil, hcell r hr c hc]
          row := by
            simp only [hlength]
            omega
          col := rfl
          room := by
            simp only
            omega
          low := by
            simp only
            omega }⟩
  · rw [Terminal.newline, if_neg hbelow]
    exact
      ⟨top + 1,
        { cell := by
            intro r hr c hc
            rw [bind_getElem?_concat_nil]
            simp only [scroll_apply]
            by_cases hlast : r + 1 < h
            · have hnext : w * r + c + w = w * (r + 1) + c := by ring
              rw [if_pos ((index_lt hc).mpr (by omega)), hnext, hcell (r + 1) hlast c hc,
                (by omega : top + 1 + r = top + (r + 1))]
            · rw [if_neg (fun hlt => hlast (by have := (index_lt hc).mp hlt; omega)),
                if_pos ((index_lt hc).mpr hr), hempty, List.getElem?_eq_none (by omega)]
              rfl
          row := by
            simp only [hlength]
            omega
          col := rfl
          room := hroom
          low := by
            simp only
            omega }⟩

/-- There is nothing behind the cursor. -/
theorem Scrolled.blank_after (hs : Scrolled w h slack char blank t front last top)
    (j : ℕ) (hj : t.cursor w ≤ j) (hjh : j < w * h) :
    char (t.cell j) = blank := by
  have hw : 0 < w := Nat.pos_of_ne_zero fun hzero => by simp [hzero] at hjh
  have hc : j % w < w := Nat.mod_lt _ hw
  have hcell := hs.cell (j / w) (Nat.div_lt_of_lt_mul hjh) (j % w) hc
  rw [Nat.div_add_mod] at hcell
  rw [hcell]
  have hrow := hs.row
  have hcol := hs.col
  rw [Terminal.cursor, ← Nat.div_add_mod j w] at hj
  rcases Nat.lt_trichotomy (j / w) t.row with hlt | heq | hgt
  · have := Nat.mul_le_mul_left w (by omega : j / w + 1 ≤ t.row)
    rw [Nat.mul_succ] at this
    omega
  · rw [heq] at hj ⊢
    rw [hrow, List.getElem?_concat_length, Option.bind_some, List.getElem?_eq_none (by omega)]
    rfl
  · rw [List.getElem?_eq_none]
    · rfl
    · rw [List.length_append, List.length_singleton]
      omega

section Typing

/-- What is typed stands behind the prompt, so the cursor does not leave its row upwards. -/
theorem Echoes.row_le {isBlank : γ → Prop} (he : Echoes w h isBlank start t text prompt lifted)
    (hsettled : t.col < w ∨ 0 < text.length ∨ t.row = start.row) : start.row ≤ t.row + lifted := by
  have hplace := he.place
  have hcursor := he.cursor
  have hcol := he.col
  rw [Terminal.cursor] at hplace hcursor
  by_contra habove
  have hle := Nat.mul_le_mul_left w (by omega : t.row + lifted + 1 ≤ start.row)
  rw [Nat.mul_succ, Nat.mul_add] at hle
  omega

/-- The rows that have been left free below the cursor are those of the text typed. -/
theorem Echoes.low {isBlank : γ → Prop} (he : Echoes w h isBlank start t text prompt lifted)
    (hw : 0 < w) (hprompt : prompt = start.cursor w ∨ w * (h - 1) < prompt + w * slack) :
    lifted = 0 ∨ h ≤ t.row + 1 + slack := by
  have hplace := he.place
  have hcursor := he.cursor
  have hcol := he.col
  rcases hprompt with heq | hlt
  · have hzero : w * lifted = 0 := by omega
    exact .inl ((Nat.mul_eq_zero.mp hzero).resolve_left (by omega))
  · right
    rw [Terminal.cursor] at hcursor
    by_contra hfar
    have hle := Nat.mul_le_mul_left w (by omega : t.row + 1 + slack ≤ h - 1)
    rw [Nat.mul_add, Nat.mul_succ] at hle
    omega

/-- What is typed at the end of the page lies in rows behind it. -/
theorem Scrolled.echoes (hs : Scrolled w h slack char blank start front last top)
    (hlast : last.length ≤ w)
    (he : Echoes w h (char · = blank) start t text prompt lifted)
    (hback : start.row ≤ t.row + lifted) (hlow : lifted = 0 ∨ h ≤ t.row + 1 + slack) :
    ∃ front' last', RowsOf w (last ++ text.map char) front' last' ∧
      Scrolled w h slack char blank t (front ++ front') last' (top + lifted) := by
  obtain ⟨hcell, hrow, hcol, hroom, hlow₀⟩ := hs
  have hplace := he.place
  have hcursor := he.cursor
  have hcol' := he.col
  rw [Terminal.cursor] at hplace hcursor
  have hlength : (last ++ text.map char).length = last.length + text.length := by simp
  obtain ⟨q, hq⟩ := Nat.exists_eq_add_of_le hback
  have hrows : w * (t.row + lifted) = w * start.row + w * q := by rw [hq, Nat.mul_add]
  rw [Nat.mul_add] at hrows
  obtain ⟨front', last', hlaid, rfl⟩ :=
    exists_rowsOf (last ++ text.map char) (q := q) (by omega : w * q ≤ _) (by omega)
  have hlast' : last'.length = t.col := by
    have hsum := congrArg List.length hlaid.text
    have hflat : front'.flatten.length = w * front'.length := by
      rw [List.length_flatten, List.map_congr_left hlaid.full, List.map_const', List.sum_replicate,
        smul_eq_mul, Nat.mul_comm]
    rw [List.length_append, hflat, hlength] at hsum
    omega
  refine ⟨front', last', hlaid, ?_⟩
  exact
    { cell := by
        intro r hr c hc
        rw [List.append_assoc]
        by_cases habove : r + lifted < start.row
        · -- a row of the page that was there
          have hbefore := he.before (w * r + c) (by
            have := Nat.mul_le_mul_left w (by omega : r + lifted + 1 ≤ start.row)
            rw [Nat.mul_succ, Nat.mul_add] at this
            omega)
          have hold := hcell (r + lifted) (by omega) c hc
          rw [hbefore, (by ring : w * r + c + w * lifted = w * (r + lifted) + c), hold,
            List.getElem?_append_left (by omega), List.getElem?_append_left (by omega),
            (by omega : top + lifted + r = top + (r + lifted))]
        · -- a row of what was typed, with the end of the page before it
          obtain ⟨j, hj⟩ := Nat.exists_eq_add_of_le (Nat.le_of_not_lt habove)
          have hrowj : w * r + w * lifted = w * start.row + w * j := by
            rw [← Nat.mul_add, hj, Nat.mul_add]
          rw [List.getElem?_append_right (by omega),
            (by omega : top + lifted + r - front.length = j), hlaid.getElem? j hc]
          rcases Nat.lt_or_ge (w * j + c) last.length with hin | hout
          · have hfirst : j = 0 := by
              by_contra hne
              have := Nat.mul_le_mul_left w (by omega : 1 ≤ j)
              omega
            subst hfirst
            have hbefore := he.before (w * r + c) (by omega)
            have hold := hcell start.row hroom c hc
            rw [hrow, List.getElem?_concat_length, Option.bind_some] at hold
            rw [hbefore, (by omega : w * r + c + w * lifted = w * start.row + c), hold,
              List.getElem?_append_left hin, Nat.mul_zero, Nat.zero_add]
          · rw [List.getElem?_append_right hout]
            rcases Nat.lt_or_ge (w * j + c - last.length) text.length with hin' | hout'
            · have htyped := he.typed (w * j + c - last.length) hin'
              rw [(by omega : prompt + (w * j + c - last.length) = w * r + c)] at htyped
              rw [List.getElem?_map, htyped]
              rfl
            · rw [List.getElem?_eq_none (by rwa [List.length_map])]
              exact he.after (w * r + c) (by rw [Terminal.cursor]; omega) ((index_lt hc).mpr hr)
      row := by
        rw [List.length_append]
        omega
      col := hlast'.symm
      room := he.row
      low := by omega }

/-- The cursor behind a cell that is printed. -/
theorem put_cursor (empty x : γ) (hrow : t.row < h) (hcol : t.col ≤ w) :
    (t.put w h empty x).cursor w = t.cursor w + 1 ∨
      (t.put w h empty x).cursor w = w * (h - 1) + 1 := by
  rw [put]
  by_cases hfull : w ≤ t.col
  · rw [if_pos hfull, newline]
    by_cases hbelow : t.row < h - 1
    · left
      rw [if_pos hbelow]
      simp only [write, cursor, Nat.mul_succ]
      omega
    · right
      rw [if_neg hbelow]
      simp only [write, cursor, (by omega : t.row = h - 1)]
  · left
    rw [if_neg hfull]
    rfl

/-- A cell printed at the end of the page. -/
theorem Scrolled.put (hs : Scrolled w h slack char blank t front last top)
    (hlast : last.length ≤ w) (hw : 0 < w) (hslack : 0 < slack) (empty x : γ)
    (hempty : char empty = blank) :
    ∃ front' last' top', RowsOf w (last ++ [char x]) front' last' ∧
      Scrolled w h slack char blank (t.put w h empty x) (front ++ front') last' top' := by
  have hcol : t.col ≤ w := hs.col.trans_le hlast
  have hstart : Echoes w h (char · = blank) t t [] (t.cursor w) 0 :=
    echoes_start hs.room hcol hs.blank_after
  obtain ⟨prompt, lifted, he⟩ := hstart.put hw hempty (Nat.zero_le _) x
  have hprompt : prompt = t.cursor w ∨ w * (h - 1) < prompt + w * slack := by
    have hcursor := he.cursor
    have hpos := Nat.mul_pos hw hslack
    rw [List.length_append, List.length_singleton, List.length_nil] at hcursor
    rcases put_cursor empty x hs.room hcol with h | h
    · exact .inl (by omega)
    · exact .inr (by omega)
  obtain ⟨front', last', hrows, hshown⟩ :=
    hs.echoes hlast he (he.row_le (.inr (.inl (by simp)))) (he.low hw hprompt)
  exact ⟨front', last', top + lifted, hrows, hshown⟩

end Typing

end Terminal

end EtyOS.Library
