import Mathlib.Tactic

/-!
# A terminal with a fixed window

A window of `h` rows of `w` cells, kept as one row after the other, and a
cursor whose column may stand just past the last cell of its row: the wrap to
the next row is put off until there is a cell to write. What was printed is
described in two ways. `Displays` compares the window with the rows of an
unbounded page whose end it shows. `Echoes` follows a text typed at a prompt,
which backspaces may take back, through wraps and scrolling. `Agrees` compares
two terminals: every operation depends on the window and the cursor only. `All` is
a property of every cell, which an operation keeps if what it writes has it.
-/

namespace EtyOS.Library

@[ext]
structure Terminal (γ : Type) where
  cell : ℕ → γ
  row : ℕ
  col : ℕ

namespace Terminal

variable {γ : Type} (w h : ℕ) (blank : γ)

/-- The window moved up one row, with a blank row at the bottom. -/
def scroll (cell : ℕ → γ) : ℕ → γ := fun k =>
  if k < w * (h - 1) then cell (k + w) else if k < w * h then blank else cell k

theorem scroll_apply (cell : ℕ → γ) (k : ℕ) : scroll w h blank cell k =
    if k < w * (h - 1) then cell (k + w) else if k < w * h then blank else cell k := rfl

def newline (t : Terminal γ) : Terminal γ :=
  if t.row < h - 1 then { t with row := t.row + 1, col := 0 }
  else { t with cell := scroll w h blank t.cell, col := 0 }

@[simp] theorem newline_col (t : Terminal γ) : (t.newline w h blank).col = 0 := by
  unfold newline
  split
  · rfl
  · rfl

/-- A cell written under the cursor. -/
def write (x : γ) (t : Terminal γ) : Terminal γ :=
  { t with cell := Function.update t.cell (w * t.row + t.col) x, col := t.col + 1 }

/-- A cell printed: the wrap comes first when it is due. -/
def put (x : γ) (t : Terminal γ) : Terminal γ :=
  (if w ≤ t.col then t.newline w h blank else t).write w x

/-- The cursor one cell back, over the end of the row above if need be. -/
def stepBack (t : Terminal γ) : Terminal γ :=
  if t.col = 0 ∧ 0 < t.row then { t with row := t.row - 1, col := w - 1 }
  else if 0 < t.col then { t with col := t.col - 1 }
  else t

/-- A backspace: one cell back, and that cell blank. -/
def erase (t : Terminal γ) : Terminal γ :=
  { t.stepBack w with
    cell := Function.update t.cell (w * (t.stepBack w).row + (t.stepBack w).col) blank }

/-- The number of cells before the cursor. -/
def cursor (t : Terminal γ) : ℕ := w * t.row + t.col

section Displays

variable {w h : ℕ} {blank : γ} {t : Terminal γ} {rows front : List (List γ)} {last : List γ}

/-- What the window shows of a page at row `r` and column `c`. -/
def pageCell (h : ℕ) (blank : γ) (rows : List (List γ)) (r c : ℕ) : γ :=
  ((rows[rows.length - h + r]?).bind (·[c]?)).getD blank

/-- The window shows the last rows of the page and the cursor is at its end. -/
structure Displays (w h : ℕ) (blank : γ) (t : Terminal γ) (front : List (List γ))
    (last : List γ) : Prop where
  cell : ∀ r < h, ∀ c < w, t.cell (w * r + c) = pageCell h blank (front ++ [last]) r c
  row : t.row + 1 = min (front.length + 1) h
  col : t.col = last.length

/-- Two positions of the window are the same cell only when they are equal. -/
theorem index_inj {r r' c c' : ℕ} (hc : c < w) (hc' : c' < w) :
    w * r + c = w * r' + c' ↔ r = r' ∧ c = c' := by
  constructor
  · intro heq
    have hr := congrArg (· / w) heq
    simp only [Nat.mul_add_div (by omega : w > 0), Nat.div_eq_of_lt hc, Nat.div_eq_of_lt hc',
      Nat.add_zero] at hr
    subst hr
    exact ⟨rfl, by omega⟩
  · rintro ⟨rfl, rfl⟩
    rfl

theorem index_lt {r c n : ℕ} (hc : c < w) : w * r + c < w * n ↔ r < n := by
  constructor
  · intro hlt
    by_contra hge
    have := Nat.mul_le_mul_left w (by omega : n ≤ r)
    omega
  · intro hr
    have := Nat.mul_le_mul_left w (by omega : r + 1 ≤ n)
    rw [Nat.mul_succ] at this
    omega

/-- A row without characters at the end of the page looks like no row. -/
theorem bind_getElem?_concat_nil {α : Type} (rows : List (List α)) (r c : ℕ) :
    ((rows ++ [[]])[r]?).bind (·[c]?) = (rows[r]?).bind (·[c]?) := by
  rcases Nat.lt_trichotomy r rows.length with hr | hr | hr
  · rw [List.getElem?_append_left hr]
  · rw [List.getElem?_append_right hr.ge, hr, Nat.sub_self, List.getElem?_eq_none le_rfl]
    rfl
  · rw [List.getElem?_eq_none, List.getElem?_eq_none hr.le]
    rw [List.length_append, List.length_singleton]
    omega

/-- A newline adds an empty row to the page. -/
theorem Displays.newline (hd : Displays w h blank t front last) :
    Displays w h blank (t.newline w h blank) (front ++ [last]) [] := by
  obtain ⟨hcell, hrow, hcol⟩ := hd
  have hlen : (front ++ [last]).length = front.length + 1 := by simp
  have hlen' : (front ++ [last] ++ [[]]).length = front.length + 2 := by simp
  by_cases hroom : t.row < h - 1
  · rw [Terminal.newline, if_pos hroom]
    refine ⟨?_, ?_, rfl⟩
    · intro r hr c hc
      have hpage := hcell r hr c hc
      rw [pageCell, hlen] at hpage
      rw [pageCell, bind_getElem?_concat_nil, hlen', hpage, (by omega : front.length + 1 - h = 0),
        (by omega : front.length + 2 - h = 0)]
    · simp only [hlen]
      omega
  · rw [Terminal.newline, if_neg hroom]
    refine ⟨?_, ?_, rfl⟩
    · intro r hr c hc
      rw [pageCell, bind_getElem?_concat_nil, hlen']
      simp only [scroll_apply]
      by_cases hlast : r + 1 < h
      · have hpage := hcell (r + 1) hlast c hc
        have hnext : w * r + c + w = w * (r + 1) + c := by ring
        rw [if_pos ((index_lt hc).mpr (by omega)), hnext, hpage, pageCell, hlen,
          (by omega : front.length + 2 - h + r = front.length + 1 - h + (r + 1))]
      · rw [if_neg (fun hlt => hlast (by have := (index_lt hc).mp hlt; omega)),
          if_pos ((index_lt hc).mpr hr), List.getElem?_eq_none]
        · rfl
        · rw [hlen]
          omega
    · simp only [hlen]
      omega

/-- An empty window with the cursor at the top left shows the empty page. -/
theorem displays_blank (hh : 0 < h) (hcell : ∀ k < w * h, t.cell k = blank) (hrow : t.row = 0)
    (hcol : t.col = 0) : Displays w h blank t [] [] := by
  refine ⟨fun r hr c hc => ?_, ?_, hcol⟩
  · rw [hcell _ ((index_lt hc).mpr hr), pageCell]
    cases ([] ++ [[]] : List (List γ)).length - h + r <;> rfl
  · rw [hrow, List.length_nil]
    omega

/-- A cell written where there is room becomes the end of the page. -/
theorem Displays.write (hd : Displays w h blank t front last) (hroom : last.length < w) (x : γ) :
    Displays w h blank (t.write w x) front (last ++ [x]) := by
  obtain ⟨hcell, hrow, hcol⟩ := hd
  have hlen : ∀ l : List γ, (front ++ [l]).length = front.length + 1 := by simp
  refine ⟨?_, hrow, ?_⟩
  · intro r hr c hc
    have hpage := hcell r hr c hc
    simp only [Terminal.write, hcol, pageCell, hlen] at hpage ⊢
    by_cases hhere : r = t.row
    · -- the last row of the page
      have hend : front.length + 1 - h + r = front.length := by omega
      rw [hend, List.getElem?_concat_length] at hpage ⊢
      by_cases hcur : c = last.length
      · rw [hhere, hcur, Function.update_self]
        simp
      · rw [Function.update_of_ne fun heq => hcur ((index_inj hc hroom).mp heq).2, hpage]
        rcases Nat.lt_or_gt_of_ne hcur with hlt | hgt
        · simp [List.getElem?_append_left hlt]
        · have hnone : (last ++ [x])[c]? = none := by
            rw [List.getElem?_eq_none]
            rw [List.length_append, List.length_singleton]
            omega
          simp [hnone, List.getElem?_eq_none (by omega : last.length ≤ c)]
    · rw [Function.update_of_ne fun heq => hhere ((index_inj hc hroom).mp heq).1, hpage]
      by_cases hfront : front.length + 1 - h + r < front.length
      · rw [List.getElem?_append_left hfront, List.getElem?_append_left hfront]
      · rw [List.getElem?_eq_none, List.getElem?_eq_none]
        · rw [hlen]
          omega
        · rw [hlen]
          omega
  · simp only [Terminal.write, hcol, List.length_append, List.length_singleton]

/-- A cell printed goes to the last row or, when that is full, to a new one. -/
theorem Displays.put (hd : Displays w h blank t front last) (hw : 0 < w) (x : γ) :
    (last.length < w → Displays w h blank (t.put w h blank x) front (last ++ [x])) ∧
      (w ≤ last.length → Displays w h blank (t.put w h blank x) (front ++ [last]) [x]) := by
  constructor
  · intro hroom
    rw [Terminal.put, if_neg (by rw [hd.col]; omega)]
    exact hd.write hroom x
  · intro hfull
    rw [Terminal.put, if_pos (by rw [hd.col]; omega)]
    exact hd.newline.write hw x

end Displays

section Echoes

variable {w h : ℕ} {blank : γ} {isBlank : γ → Prop} {start t : Terminal γ} {text : List γ}
  {prompt lifted : ℕ}

/-- A text stands between the prompt and the cursor, with blank cells behind
it. The prompt is where the cursor was at the start, moved up with the window
by `lifted` rows like everything before it. -/
structure Echoes (w h : ℕ) (isBlank : γ → Prop) (start t : Terminal γ) (text : List γ)
    (prompt lifted : ℕ) : Prop where
  row : t.row < h
  col : t.col ≤ w
  place : prompt + w * lifted = start.cursor w
  cursor : t.cursor w = prompt + text.length
  typed : ∀ j < text.length, text[j]? = some (t.cell (prompt + j))
  after : ∀ j, t.cursor w ≤ j → j < w * h → isBlank (t.cell j)
  before : ∀ j < prompt, t.cell j = start.cell (j + w * lifted)

theorem echoes_start (hrow : start.row < h) (hcol : start.col ≤ w)
    (hafter : ∀ j, start.cursor w ≤ j → j < w * h → isBlank (start.cell j)) :
    Echoes w h isBlank start start [] (start.cursor w) 0 where
  row := hrow
  col := hcol
  place := rfl
  cursor := rfl
  typed := by
    intro j hj
    cases hj
  after := hafter
  before := fun _ _ => rfl

/-- The wrap that was put off, with a row below: no cell changes, and the cursor
counts the same cells before it. -/
theorem Echoes.newline_below (he : Echoes w h isBlank start t text prompt lifted)
    (hfull : t.col = w) (hroom : t.row < h - 1) :
    Echoes w h isBlank start (t.newline w h blank) text prompt lifted := by
  obtain ⟨hrow, hcol, hplace, hcursor, htyped, hafter, hbefore⟩ := he
  have hsame : (t.newline w h blank).cursor w = t.cursor w := by
    rw [Terminal.newline, if_pos hroom]
    simp only [Terminal.cursor, Nat.mul_succ, hfull]
    omega
  rw [Terminal.newline, if_pos hroom] at hsame ⊢
  exact
    { row := by
        simp only
        omega
      col := Nat.zero_le _
      place := hplace
      cursor := hsame.trans hcursor
      typed := htyped
      after := by
        intro j hj
        rw [hsame] at hj
        exact hafter j hj
      before := hbefore }

/-- On the last row the whole window moves up, and the prompt with it. -/
theorem Echoes.newline_scroll (he : Echoes w h isBlank start t text prompt lifted)
    (hblank : isBlank blank) (hfull : t.col = w) (hlast : t.row = h - 1)
    (hshort : text.length ≤ w * (h - 1)) :
    Echoes w h isBlank start (t.newline w h blank) text (prompt - w) (lifted + 1) := by
  obtain ⟨hrow, hcol, hplace, hcursor, htyped, hafter, hbefore⟩ := he
  have hwh : w * h = w * (h - 1) + w := by
    rw [← Nat.mul_succ]
    congr 1
    omega
  have hend : prompt + text.length = w * (h - 1) + w := by
    rw [← hcursor, Terminal.cursor, hlast, hfull]
  rw [Terminal.newline, if_neg (by omega)]
  exact
    { row := hrow
      col := Nat.zero_le _
      place := by
        rw [Nat.mul_succ]
        omega
      cursor := by
        simp only [Terminal.cursor, hlast]
        omega
      typed := by
        intro j hj
        rw [htyped j hj]
        simp only [scroll_apply]
        rw [if_pos (by omega)]
        congr 2
        omega
      after := by
        intro j hj hjh
        simp only [Terminal.cursor, hlast] at hj
        simp only [scroll_apply]
        rw [if_neg (by omega), if_pos hjh]
        exact hblank
      before := by
        intro j hj
        simp only [scroll_apply]
        rw [if_pos (by omega), hbefore (j + w) (by omega), Nat.mul_succ]
        congr 1
        omega }

/-- A cell written where there is room becomes the end of the text. -/
theorem Echoes.write (he : Echoes w h isBlank start t text prompt lifted) (hroom : t.col < w)
    (x : γ) : Echoes w h isBlank start (t.write w x) (text ++ [x]) prompt lifted := by
  obtain ⟨hrow, hcol, hplace, hcursor, htyped, hafter, hbefore⟩ := he
  have hnext : (t.write w x).cursor w = t.cursor w + 1 := rfl
  have hcell : ∀ j, j ≠ t.cursor w → (t.write w x).cell j = t.cell j := by
    intro j hj
    exact Function.update_of_ne hj _ _
  have hhere : (t.write w x).cell (t.cursor w) = x := Function.update_self _ _ _
  exact
    { row := hrow
      col := hroom
      place := hplace
      cursor := by
        rw [hnext, hcursor, List.length_append, List.length_singleton]
        omega
      typed := by
        intro j hj
        rw [List.length_append, List.length_singleton] at hj
        rcases Nat.lt_or_ge j text.length with hlt | hge
        · rw [List.getElem?_append_left hlt, htyped j hlt, hcell _ (by omega)]
        · have hj : j = text.length := by omega
          rw [hj, List.getElem?_concat_length, ← hcursor, hhere]
      after := by
        intro j hj hjh
        rw [hcell j (by omega)]
        exact hafter j (by omega) hjh
      before := by
        intro j hj
        rw [hcell j (by omega)]
        exact hbefore j hj }

/-- A cell typed is added to the text. -/
theorem Echoes.put (he : Echoes w h isBlank start t text prompt lifted) (hw : 0 < w)
    (hblank : isBlank blank) (hshort : text.length ≤ w * (h - 1)) (x : γ) :
    ∃ prompt' lifted',
      Echoes w h isBlank start (t.put w h blank x) (text ++ [x]) prompt' lifted' := by
  rw [Terminal.put]
  by_cases hfull : w ≤ t.col
  · have hcol : t.col = w := le_antisymm he.col hfull
    have hnext : (t.newline w h blank).col < w := by
      rw [newline_col]
      exact hw
    rw [if_pos hfull]
    by_cases hroom : t.row < h - 1
    · exact ⟨prompt, lifted, (he.newline_below hcol hroom).write hnext x⟩
    · have hlast : t.row = h - 1 := by
        have := he.row
        omega
      exact ⟨prompt - w, lifted + 1, (he.newline_scroll hblank hcol hlast hshort).write hnext x⟩
  · rw [if_neg hfull]
    exact ⟨prompt, lifted, he.write (by omega) x⟩

/-- Behind the prompt a step back is one cell, whatever row it ends on. -/
theorem stepBack_cursor (hrow : t.row < h) (hcol : t.col ≤ w) (hpos : 0 < t.cursor w) :
    (t.stepBack w).cursor w + 1 = t.cursor w ∧ (t.stepBack w).row < h ∧
      (t.stepBack w).col ≤ w := by
  unfold stepBack
  by_cases hedge : t.col = 0 ∧ 0 < t.row
  · rw [if_pos hedge]
    obtain ⟨r, hr⟩ := Nat.exists_eq_succ_of_ne_zero (by omega : t.row ≠ 0)
    have hw : 0 < w := by
      by_contra hzero
      have hzero : w = 0 := by omega
      simp [cursor, hzero, hedge.1] at hpos
    simp only [cursor, hr, hedge.1, Nat.succ_sub_one, Nat.mul_succ] at hrow ⊢
    omega
  · rw [if_neg hedge]
    have hleft : 0 < t.col := by
      by_contra hzero
      have hzero : t.col = 0 ∧ t.row = 0 := by omega
      simp [cursor, hzero.1, hzero.2] at hpos
    rw [if_pos hleft]
    simp only [cursor]
    omega

/-- A backspace takes back the last cell of the text. -/
theorem Echoes.erase (he : Echoes w h isBlank start t text prompt lifted) (hblank : isBlank blank)
    (hne : text ≠ []) :
    Echoes w h isBlank start (t.erase w blank) text.dropLast prompt lifted := by
  obtain ⟨hrow, hcol, hplace, hcursor, htyped, hafter, hbefore⟩ := he
  have hpos := List.length_pos_of_ne_nil hne
  obtain ⟨hstep, hrow', hcol'⟩ := stepBack_cursor hrow hcol (by omega)
  have hnext : (t.erase w blank).cursor w + 1 = t.cursor w := hstep
  have hcell : ∀ j, j ≠ (t.erase w blank).cursor w → (t.erase w blank).cell j = t.cell j := by
    intro j hj
    exact Function.update_of_ne hj _ _
  have hhere : (t.erase w blank).cell ((t.erase w blank).cursor w) = blank :=
    Function.update_self _ _ _
  exact
    { row := hrow'
      col := hcol'
      place := hplace
      cursor := by
        rw [List.length_dropLast]
        omega
      typed := by
        intro j hj
        rw [List.length_dropLast] at hj
        rw [List.getElem?_dropLast, if_pos hj, htyped j (by omega), hcell _ (by omega)]
      after := by
        intro j hj hjh
        rcases Nat.eq_or_lt_of_le hj with heq | hlt
        · rw [← heq, hhere]
          exact hblank
        · rw [hcell j (by omega)]
          exact hafter j (by omega) hjh
      before := by
        intro j hj
        rw [hcell j (by omega)]
        exact hbefore j hj }

end Echoes

section Agrees

/-- Two terminals have the same window and the same cursor. What lies beyond
the window may differ. -/
structure Agrees (w h : ℕ) (t u : Terminal γ) : Prop where
  cell : ∀ k < w * h, t.cell k = u.cell k
  row : t.row = u.row
  col : t.col = u.col

variable {w h : ℕ} {blank : γ} {t u : Terminal γ}

theorem Agrees.newline (ha : Agrees w h t u) :
    Agrees w h (t.newline w h blank) (u.newline w h blank) := by
  have hwindow : w * (h - 1) + w ≤ w * h ∨ w * (h - 1) = 0 := by
    cases h with
    | zero => exact Or.inr rfl
    | succ h => exact Or.inl (Nat.mul_succ w h).ge
  unfold Terminal.newline
  rw [ha.row]
  split
  · exact ⟨ha.cell, rfl, rfl⟩
  · refine ⟨fun k hk => ?_, rfl, rfl⟩
    dsimp only
    rw [scroll_apply, scroll_apply, if_pos hk, if_pos hk]
    split
    · exact ha.cell _ (by omega)
    · rfl

theorem Agrees.write (ha : Agrees w h t u) (x : γ) : Agrees w h (t.write w x) (u.write w x) := by
  refine ⟨fun k hk => ?_, ha.row, congrArg (· + 1) ha.col⟩
  simp only [Terminal.write, ha.row, ha.col, Function.update_apply, ha.cell k hk]

theorem Agrees.put (ha : Agrees w h t u) (x : γ) :
    Agrees w h (t.put w h blank x) (u.put w h blank x) := by
  unfold Terminal.put
  rw [ha.col]
  split
  · exact ha.newline.write x
  · exact ha.write x

theorem Agrees.stepBack (ha : Agrees w h t u) : Agrees w h (t.stepBack w) (u.stepBack w) := by
  unfold Terminal.stepBack
  rw [ha.row, ha.col]
  split
  · exact ⟨ha.cell, rfl, rfl⟩
  · split
    · exact ⟨ha.cell, rfl, rfl⟩
    · exact ha

theorem Agrees.erase (ha : Agrees w h t u) :
    Agrees w h (t.erase w blank) (u.erase w blank) := by
  have hback := ha.stepBack
  refine ⟨fun k hk => ?_, hback.row, hback.col⟩
  simp only [Terminal.erase, hback.row, hback.col, Function.update_apply, ha.cell k hk]

end Agrees

section All

variable {w h : ℕ} {blank x : γ} {t : Terminal γ} {P : γ → Prop}

/-- Every cell of the window satisfies `P`. -/
def All (w h : ℕ) (P : γ → Prop) (t : Terminal γ) : Prop := ∀ k < w * h, P (t.cell k)

theorem All.update (ht : t.All w h P) (hx : P x) (i row col : ℕ) :
    All w h P { cell := Function.update t.cell i x, row := row, col := col } := by
  intro k hk
  by_cases hki : k = i
  · simpa [hki] using hx
  · simpa [hki] using ht k hk

theorem All.newline (ht : t.All w h P) (hblank : P blank) : (t.newline w h blank).All w h P := by
  intro k hk
  unfold Terminal.newline
  split
  · exact ht k hk
  · simp only [scroll_apply]
    by_cases hmoved : k < w * (h - 1)
    · have hrows : w * (h - 1) + w = w * h := by
        rw [← Nat.mul_succ]
        congr 1
        cases h with
        | zero => simp at hk
        | succ h => rfl
      rw [if_pos hmoved]
      exact ht _ (by omega)
    · rw [if_neg hmoved, if_pos hk]
      exact hblank

theorem All.put (ht : t.All w h P) (hblank : P blank) (hx : P x) :
    (t.put w h blank x).All w h P := by
  have hwrap : (if w ≤ t.col then t.newline w h blank else t).All w h P := by
    split
    · exact ht.newline hblank
    · exact ht
  exact hwrap.update hx _ _ _

theorem All.erase (ht : t.All w h P) (hblank : P blank) : (t.erase w blank).All w h P :=
  ht.update hblank _ _ _

end All

end Terminal

end EtyOS.Library
