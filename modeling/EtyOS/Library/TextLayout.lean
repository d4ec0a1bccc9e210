import Mathlib.Tactic

/-!
# Laying text out in rows

A text is split at its newlines, and each line is cut into rows of `w`
characters. A full row is not followed by an empty one: the cut comes only when
there is one more character. The lemmas say what one more character does to the
rows, whatever came before.
-/

namespace EtyOS.Library

variable {α : Type}

/-- A line cut into rows of `w` characters; the empty line is one empty row. -/
def wrap (w : ℕ) (line : List α) : List (List α) :=
  if 0 < w ∧ w < line.length then line.take w :: wrap w (line.drop w) else [line]
termination_by line.length
decreasing_by
  rw [List.length_drop]
  omega

theorem wrap_of_le {w : ℕ} {line : List α} (h : line.length ≤ w) : wrap w line = [line] := by
  rw [wrap, if_neg (by omega)]

/-- The rows of a text whose lines end in `nl`. -/
def textRows [BEq α] (nl : α) (w : ℕ) (text : List α) : List (List α) :=
  (text.splitOn nl).flatMap (wrap w)

/-- One more character goes to the last row of the line, or to a new row when
that one is full. -/
theorem exists_wrap_concat {w : ℕ} (hw : 0 < w) (line : List α) :
    ∃ front row, wrap w line = front ++ [row] ∧ row.length ≤ w ∧
      ∀ c, wrap w (line ++ [c]) =
        if row.length < w then front ++ [row ++ [c]] else front ++ [row, [c]] := by
  induction hn : line.length using Nat.strong_induction_on generalizing line with
  | _ n ih =>
    by_cases hlong : w < line.length
    · have hdrop : (line.drop w).length < n := by
        rw [List.length_drop]
        omega
      obtain ⟨front, row, hrows, hlen, hnext⟩ := ih _ hdrop (line.drop w) rfl
      refine ⟨line.take w :: front, row, ?_, hlen, ?_⟩
      · rw [wrap, if_pos ⟨hw, hlong⟩, hrows, List.cons_append]
      · intro c
        have hlonger : w < (line ++ [c]).length := by
          rw [List.length_append]
          omega
        rw [wrap, if_pos ⟨hw, hlonger⟩, List.take_append_of_le_length hlong.le,
          List.drop_append_of_le_length hlong.le, hnext c]
        split <;> rfl
    · refine ⟨[], line, ?_, by omega, ?_⟩
      · rw [wrap_of_le (by omega), List.nil_append]
      · intro c
        by_cases hroom : line.length < w
        · have hfits : (line ++ [c]).length ≤ w := by
            rw [List.length_append, List.length_singleton]
            omega
          rw [wrap_of_le hfits, if_pos hroom, List.nil_append]
        · have hfull : line.length = w := by omega
          have hover : 0 < w ∧ w < (line ++ [c]).length := by
            rw [List.length_append, List.length_singleton]
            omega
          have hrest : [c].length ≤ w := by
            rw [List.length_singleton]
            omega
          rw [wrap, if_pos hover, if_neg hroom, ← hfull, List.take_left, List.drop_left, hfull,
            wrap_of_le hrest, List.nil_append]

section Rows

variable [BEq α] [LawfulBEq α] (nl : α)

/-- What is added to a text without a newline is added to its last line. -/
theorem exists_splitOn_append (text : List α) :
    ∃ front line, ∀ more, nl ∉ more → (text ++ more).splitOn nl = front ++ [line ++ more] := by
  induction text with
  | nil =>
    refine ⟨[], [], ?_⟩
    intro more hmore
    rw [List.nil_append, List.nil_append, List.splitOn_eq_singleton hmore]
  | cons c text ih =>
    obtain ⟨front, line, hline⟩ := ih
    by_cases hc : c = nl
    · refine ⟨[] :: front, line, ?_⟩
      intro more hmore
      rw [List.cons_append, List.splitOn_cons_eq_if_modifyHead, hline more hmore, if_pos (by simp [hc]),
        List.cons_append]
    · cases front with
      | nil =>
        refine ⟨[], c :: line, ?_⟩
        intro more hmore
        rw [List.cons_append, List.splitOn_cons_eq_if_modifyHead, hline more hmore,
          if_neg (by simp [hc])]
        rfl
      | cons first front =>
        refine ⟨(c :: first) :: front, line, ?_⟩
        intro more hmore
        rw [List.cons_append, List.splitOn_cons_eq_if_modifyHead, hline more hmore,
          if_neg (by simp [hc])]
        rfl

/-- What a newline and what another character does to the rows of a text. -/
theorem exists_textRows_concat {w : ℕ} (hw : 0 < w) (text : List α) :
    ∃ front row, textRows nl w text = front ++ [row] ∧ row.length ≤ w ∧
      textRows nl w (text ++ [nl]) = front ++ [row, []] ∧
      ∀ c, c ≠ nl → textRows nl w (text ++ [c]) =
        if row.length < w then front ++ [row ++ [c]] else front ++ [row, [c]] := by
  obtain ⟨lines, line, hsplit⟩ := exists_splitOn_append nl text
  obtain ⟨front, row, hwrap, hlen, hnext⟩ := exists_wrap_concat hw line
  have hnow := hsplit [] List.not_mem_nil
  rw [List.append_nil, List.append_nil] at hnow
  have hrows : textRows nl w text = lines.flatMap (wrap w) ++ front ++ [row] := by
    rw [textRows, hnow, List.flatMap_append, List.flatMap_singleton, hwrap, List.append_assoc]
  refine ⟨lines.flatMap (wrap w) ++ front, row, hrows, hlen, ?_, ?_⟩
  · have hempty : wrap w ([] : List α) = [[]] := wrap_of_le (Nat.zero_le w)
    rw [textRows, List.splitOn_append_cons_self, List.flatMap_append, ← textRows, hrows,
      List.splitOn_nil, List.flatMap_singleton, hempty, List.append_assoc]
    rfl
  · intro c hc
    have hmore : nl ∉ [c] := by
      rw [List.mem_singleton]
      exact Ne.symm hc
    rw [textRows, hsplit [c] hmore, List.flatMap_append, List.flatMap_singleton, hnext c]
    split <;> rw [List.append_assoc]

end Rows

end EtyOS.Library
