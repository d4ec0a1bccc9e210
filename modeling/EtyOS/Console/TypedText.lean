import EtyOS.Console.Keyboard

/-!
# The command and the text typed

A key without character puts a NUL into the line. A backspace that takes the NUL
back leaves the character in front of it, and a NUL that stays ends the string
which `strcmp` compares. The command is the text typed exactly when neither
makes a difference.
-/

namespace EtyOS

open Library Keyboard

/-- The characters of the keys pressed, after the backspaces. -/
def typedText (line : List UInt8) : List UInt8 := edited (line.filter (· ≠ 0))

/-- What `read_input` takes of a line after the characters `taken`: all of it,
or the characters up to the one that makes the line 255 characters long. -/
def takenPart (taken : List UInt8) : List UInt8 → List UInt8
  | [] => taken
  | c :: line => if (edited taken).length < 255 then takenPart (taken ++ [c]) line else taken

/-- Since the line was last empty no key without character was pressed. -/
def MappedSinceEmpty (line : List UInt8) : Prop :=
  ∃ done live, line = done ++ live ∧ edited done = [] ∧ 0 ∉ live

/-- No backspace of `after` takes back the character `c` in front of it. -/
def Stays (c : UInt8) (after : List UInt8) : Prop :=
  ∀ keys, keys <+: after → edited (c :: keys) ≠ []

/-- The first NUL that stays in the line stands behind `text`. -/
def CutBehind (line text : List UInt8) : Prop :=
  ∃ before after, line = before ++ 0 :: after ∧ edited before = text ∧ 0 ∉ text ∧ Stays 0 after

section Typed

theorem typedText_concat (line : List UInt8) (c : UInt8) : typedText (line ++ [c]) =
    if c = 0 then typedText line
    else if c = 0x08 then (typedText line).dropLast else typedText line ++ [c] := by
  rw [typedText, List.filter_append]
  by_cases hc : c = 0
  · subst hc
    rw [if_pos rfl]
    simp [typedText]
  · have hkept : [c].filter (· ≠ 0) = [c] := by simp [hc]
    rw [hkept, edited_concat, if_neg hc]
    rfl

/-- From an empty line on only the characters typed since then count. -/
theorem edited_append_of_nil {done : List UInt8} (hdone : edited done = []) (live : List UInt8) :
    edited (done ++ live) = edited live := by
  rw [edited, List.foldl_append]
  change live.foldl _ (edited done) = _
  rw [hdone]
  rfl

/-- The buffer has at least as many characters as the text typed. -/
theorem length_typedText_le (line : List UInt8) :
    (typedText line).length ≤ (edited line).length := by
  induction line using List.reverseRecOn with
  | nil => exact le_rfl
  | append_singleton line c ih =>
    rw [typedText_concat, edited_concat]
    by_cases hc : c = 0
    · subst hc
      rw [if_pos rfl, if_neg (by decide), List.length_append]
      exact ih.trans (Nat.le_add_right _ _)
    · rw [if_neg hc]
      by_cases hback : c = 0x08
      · rw [if_pos hback, if_pos hback, List.length_dropLast, List.length_dropLast]
        exact Nat.sub_le_sub_right ih 1
      · rw [if_neg hback, if_neg hback, List.length_append, List.length_append]
        exact Nat.add_le_add_right ih _

theorem MappedSinceEmpty.typedText_eq {line : List UInt8} (h : MappedSinceEmpty line) :
    typedText line = edited line := by
  obtain ⟨done, live, rfl, hdone, hlive⟩ := h
  have hempty : edited (done.filter (· ≠ 0)) = [] := by
    have hle := length_typedText_le done
    rw [hdone] at hle
    exact List.eq_nil_of_length_eq_zero (Nat.le_zero.mp hle)
  have hkept : live.filter (· ≠ 0) = live := List.filter_eq_self.mpr (forall_ne_nul hlive)
  rw [typedText, List.filter_append, edited_append_of_nil hempty, hkept,
    edited_append_of_nil hdone]

theorem MappedSinceEmpty.not_mem {line : List UInt8} (h : MappedSinceEmpty line) :
    0 ∉ edited line := by
  obtain ⟨done, live, rfl, hdone, hlive⟩ := h
  rw [edited_append_of_nil hdone]
  exact fun hnul => hlive (mem_of_mem_edited hnul)

/-- A key without character since the line was last empty leaves more in the
buffer than was typed. -/
theorem mappedSinceEmpty_or_length_lt (line : List UInt8) :
    MappedSinceEmpty line ∨ (typedText line).length < (edited line).length := by
  induction line using List.reverseRecOn with
  | nil => exact .inl ⟨[], [], rfl, rfl, by simp⟩
  | append_singleton line c ih =>
    have hle := length_typedText_le line
    by_cases hc : c = 0
    · right
      subst hc
      rw [typedText_concat, edited_concat, if_pos rfl, if_neg (by decide), List.length_append,
        List.length_singleton]
      exact Nat.lt_succ_of_le hle
    rcases ih with ⟨done, live, rfl, hdone, hlive⟩ | hlt
    · left
      refine ⟨done, live ++ [c], List.append_assoc _ _ _, hdone, ?_⟩
      simp [hlive, Ne.symm hc]
    · by_cases hback : c = 0x08
      · subst hback
        by_cases hempty : edited (line ++ [0x08]) = []
        · exact .inl ⟨line ++ [0x08], [], (List.append_nil _).symm, hempty, by simp⟩
        · right
          have hpos := List.length_pos_of_ne_nil hempty
          rw [edited_concat, if_pos rfl, List.length_dropLast] at hpos
          rw [typedText_concat, edited_concat, if_neg hc, if_pos rfl, if_pos rfl,
            List.length_dropLast, List.length_dropLast]
          omega
      · right
        rw [typedText_concat, edited_concat, if_neg hc, if_neg hback, if_neg hback,
          List.length_append, List.length_append]
        exact Nat.add_lt_add_right hlt _

/-- The buffer holds the text typed exactly when no key without character was
pressed since the line was last empty. -/
theorem edited_eq_typedText_iff (line : List UInt8) :
    edited line = typedText line ↔ MappedSinceEmpty line := by
  constructor
  · intro heq
    rcases mappedSinceEmpty_or_length_lt line with h | hlt
    · exact h
    · rw [heq] at hlt
      exact absurd hlt (Nat.lt_irrefl _)
  · intro h
    exact h.typedText_eq.symm

end Typed

section Stays

variable {c : UInt8} {line after : List UInt8}

theorem Stays.nil (hc : c ≠ 0x08) : Stays c [] := by
  intro keys hkeys
  rw [List.prefix_nil.mp hkeys, edited_of_not_mem (by simp [Ne.symm hc])]
  exact List.cons_ne_nil _ _

theorem Stays.concat (h : Stays c after) {c' : UInt8} (hlast : edited (c :: after ++ [c']) ≠ []) :
    Stays c (after ++ [c']) := by
  intro keys hkeys
  rcases List.prefix_concat_iff.mp hkeys with rfl | hkeys
  · exact hlast
  · exact h keys hkeys

/-- A character that stays is in front of whatever the later characters leave,
and they do not reach what is in front of it. -/
theorem Stays.edited_eq (h : Stays c after) (hc : c ≠ 0x08) (before : List UInt8) :
    ∃ back, edited (c :: after) = c :: back ∧
      edited (before ++ c :: after) = edited before ++ c :: back := by
  induction after using List.reverseRecOn with
  | nil =>
    refine ⟨[], ?_, ?_⟩
    · exact edited_of_not_mem (by simp [Ne.symm hc])
    · rw [edited_concat, if_neg hc]
  | append_singleton after c' ih =>
    obtain ⟨back, hown, hall⟩ := ih fun keys hkeys => h keys (hkeys.trans (List.prefix_append _ _))
    have hlast := h _ (List.prefix_refl _)
    rw [← List.cons_append, edited_concat, hown] at hlast ⊢
    rw [← List.append_assoc, edited_concat, hall]
    by_cases hback : c' = 0x08
    · rw [if_pos hback] at hlast
      have hne : back ≠ [] := by
        rintro rfl
        exact hlast rfl
      rw [if_pos hback, if_pos hback]
      refine ⟨back.dropLast, List.dropLast_cons_of_ne_nil hne, ?_⟩
      rw [List.dropLast_append_of_ne_nil (by simp), List.dropLast_cons_of_ne_nil hne]
    · rw [if_neg hback, if_neg hback]
      refine ⟨back ++ [c'], rfl, ?_⟩
      rw [List.append_assoc]
      rfl

/-- A character of the edited line is one that stays, and what stands in front
of it is what was there when it was typed. -/
theorem exists_stays (hc : c ≠ 0x08) {front back : List UInt8}
    (h : edited line = front ++ c :: back) :
    ∃ before after, line = before ++ c :: after ∧ edited before = front ∧ Stays c after := by
  induction line using List.reverseRecOn generalizing back with
  | nil => exact absurd h.symm (by simp [edited])
  | append_singleton line c' ih =>
    rw [edited_concat] at h
    by_cases hback : c' = 0x08
    · -- what the backspace takes back stands behind the character
      rw [if_pos hback] at h
      rcases List.eq_nil_or_concat (edited line) with hnil | ⟨text, last, htext⟩
      · rw [hnil] at h
        exact absurd h (by simp)
      rw [List.concat_eq_append] at htext
      rw [htext, List.dropLast_concat] at h
      rw [h, List.append_assoc, List.cons_append] at htext
      obtain ⟨before, after, rfl, hfront, hstays⟩ := ih htext
      obtain ⟨back', hown, hall⟩ := hstays.edited_eq hc before
      rw [hall, hfront] at htext
      refine ⟨before, after ++ [c'], List.append_assoc _ _ _, hfront, hstays.concat ?_⟩
      rw [edited_concat, if_pos hback, hown, List.append_cancel_left htext, ← List.cons_append,
        List.dropLast_concat]
      exact List.cons_ne_nil _ _
    · rw [if_neg hback] at h
      rcases List.eq_nil_or_concat back with rfl | ⟨back, last, rfl⟩
      · obtain ⟨hfront, hlast⟩ := List.append_inj' h rfl
        cases hlast
        exact ⟨line, [], rfl, hfront, .nil hc⟩
      · rw [List.concat_eq_append, ← List.cons_append, ← List.append_assoc] at h
        obtain ⟨hline, -⟩ := List.append_inj' h rfl
        obtain ⟨before, after, rfl, hfront, hstays⟩ := ih hline
        refine ⟨before, after ++ [c'], List.append_assoc _ _ _, hfront, hstays.concat ?_⟩
        rw [edited_concat, if_neg hback]
        exact List.append_ne_nil_of_right_ne_nil _ (List.cons_ne_nil _ _)

theorem takeWhile_append_nul {front : List UInt8} (hfront : 0 ∉ front) (back : List UInt8) :
    (front ++ 0 :: back).takeWhile (· ≠ 0) = front := by
  rw [List.takeWhile_append_of_pos (forall_ne_nul hfront), List.takeWhile_cons_of_neg (by simp),
    List.append_nil]

/-- With a NUL in the buffer, the string there is what stands in front of the
first NUL that stays. -/
theorem takeWhile_edited_eq_iff (hnul : 0 ∈ edited line) (text : List UInt8) :
    (edited line).takeWhile (· ≠ 0) = text ↔ CutBehind line text := by
  constructor
  · rintro rfl
    obtain ⟨front, back, hedited, hfront⟩ := List.eq_append_cons_of_mem hnul
    obtain ⟨before, after, hline, hbefore, hstays⟩ := exists_stays (by decide) hedited
    rw [hedited, takeWhile_append_nul hfront]
    exact ⟨before, after, hline, hbefore, hfront, hstays⟩
  · rintro ⟨before, after, rfl, rfl, hfront, hstays⟩
    obtain ⟨back, -, hall⟩ := hstays.edited_eq (by decide) before
    rw [hall, takeWhile_append_nul hfront]

/-- A NUL that stays is in the buffer. -/
theorem CutBehind.mem {text : List UInt8} (h : CutBehind line text) : 0 ∈ edited line := by
  obtain ⟨before, after, rfl, -, -, hstays⟩ := h
  obtain ⟨back, -, hall⟩ := hstays.edited_eq (by decide) before
  rw [hall]
  simp

end Stays

section Taken

theorem length_edited_concat_le (line : List UInt8) (c : UInt8) :
    (edited (line ++ [c])).length ≤ (edited line).length + 1 := by
  rw [edited_concat]
  split
  · rw [List.length_dropLast]
    omega
  · exact (List.length_append).le

/-- The part taken is a beginning of the line, and all of it unless it fills the
buffer. -/
theorem takenPart_spec (taken line : List UInt8) (hshort : (edited taken).length ≤ 255) :
    takenPart taken line <+: taken ++ line ∧ (edited (takenPart taken line)).length ≤ 255 ∧
      (takenPart taken line = taken ++ line ∨ (edited (takenPart taken line)).length = 255) := by
  induction line generalizing taken with
  | nil =>
    rw [takenPart, List.append_nil]
    exact ⟨List.prefix_refl _, hshort, .inl rfl⟩
  | cons c line ih =>
    rw [takenPart]
    by_cases hroom : (edited taken).length < 255
    · have hnext := ih (taken ++ [c]) ((length_edited_concat_le taken c).trans hroom)
      rw [List.append_assoc] at hnext
      rw [if_pos hroom]
      exact hnext
    · rw [if_neg hroom]
      exact ⟨List.prefix_append _ _, hshort, .inr (by omega)⟩

/-- The loop ends with the part taken in the buffer. -/
theorem LineEditor.loop_takenPart {e : LineEditor} {typed line : List UInt8} {enter : UInt8}
    (henter : isEnter enter) (hline : ∀ c ∈ line, ¬isEnter c) (rest : List UInt8)
    (hholds : e.Holds typed) (hshort : e.i ≤ 255) :
    ∃ e' rest', loop 256 (line ++ enter :: rest) e = some (e', rest') ∧
      e'.Holds (takenPart typed line) := by
  induction line generalizing e typed with
  | nil =>
    rw [List.nil_append, loop]
    split
    · exact ⟨e, rest, rfl, hholds⟩
    · exact ⟨e, enter :: rest, rfl, hholds⟩
  | cons c line ih =>
    rw [List.cons_append, loop, takenPart, ← hholds.index]
    by_cases hroom : e.i < 255
    · have hnext := key_index_le c e
      rw [if_pos hroom, if_neg (hline c (List.mem_cons_self ..)), if_pos hroom]
      exact ih (fun c' hc' => hline c' (List.mem_cons_of_mem c hc')) (hholds.key hroom c)
        (by omega)
    · rw [if_neg hroom, if_neg hroom]
      exact ⟨e, c :: (line ++ enter :: rest), rfl, hholds⟩

/-- The characters of the edited line other than NUL were typed. -/
theorem countP_edited_le (line : List UInt8) :
    (edited line).countP (· ≠ 0) ≤ line.countP fun c => c ≠ 0 ∧ c ≠ 0x08 := by
  induction line using List.reverseRecOn with
  | nil => exact le_rfl
  | append_singleton line c ih =>
    rw [edited_concat, List.countP_append]
    by_cases hback : c = 0x08
    · rw [if_pos hback]
      exact ((List.dropLast_sublist _).countP_le).trans (ih.trans (Nat.le_add_right _ _))
    · rw [if_neg hback, List.countP_append]
      apply Nat.add_le_add ih
      by_cases hc : c = 0
      · simp [hc]
      · simp [hc, hback]

/-- A full buffer with fewer than 255 characters typed has a NUL in it. -/
theorem mem_edited_of_full {typed line : List UInt8} (hbegins : typed <+: line)
    (hshort : line.countP (fun c => c ≠ 0 ∧ c ≠ 0x08) < 255)
    (hfull : (edited typed).length = 255) : 0 ∈ edited typed := by
  by_contra hnul
  have hall : (edited typed).countP (· ≠ 0) = (edited typed).length :=
    List.countP_eq_length.mpr (forall_ne_nul hnul)
  have htyped := countP_edited_le typed
  have hline := hbegins.sublist.countP_le (p := fun c : UInt8 => decide (c ≠ 0 ∧ c ≠ 0x08))
  omega

end Taken

section Command

variable (console : Console) (buffer : Memory) (polls : List Poll) (k : Keyboard)

/-- A call that meets an Enter leaves the part taken in the buffer, read up to
its first NUL. -/
theorem Keyboard.readInput_takenPart {line rest : List UInt8}
    (hline : takeLine (keysPressed (scanCodes polls) k) = some (line, rest)) :
    ∃ console' buffer' k' polls',
      k.readInput 256 console buffer polls = some (console', buffer', k', polls') ∧
      commandString buffer' = (edited (takenPart [] line)).takeWhile (· ≠ 0) := by
  obtain ⟨enter, henter, hkeys, hchars⟩ := takeLine_eq_some hline
  obtain ⟨e', rest', hloop, hholds⟩ := LineEditor.loop_takenPart henter hchars rest
    (LineEditor.holds_start console buffer) (Nat.zero_le _)
  have hread := readInput_eq 256 console buffer polls k
  rw [hkeys, EtyOS.readInput, hloop] at hread
  obtain ⟨⟨console', buffer', k', polls'⟩, hrun, heq⟩ := Option.map_eq_some_iff.mp hread
  have hbuffer : buffer' = Function.update e'.buffer e'.i 0 := congrArg (fun r => r.2.1) heq
  refine ⟨console', buffer', k', polls', hrun, ?_⟩
  rw [hbuffer]
  exact hholds.commandString_takeWhile (takenPart_spec [] line (Nat.zero_le _)).2.1

theorem takeWhile_takenPart_iff {line : List UInt8}
    (hshort : line.countP (fun c => c ≠ 0 ∧ c ≠ 0x08) < 255) :
    (edited (takenPart [] line)).takeWhile (· ≠ 0) = typedText line ↔
      MappedSinceEmpty (takenPart [] line) ∨ CutBehind (takenPart [] line) (typedText line) := by
  obtain ⟨hbegins, -, hends⟩ := takenPart_spec [] line (Nat.zero_le _)
  by_cases hnul : 0 ∈ edited (takenPart [] line)
  · rw [takeWhile_edited_eq_iff hnul]
    constructor
    · exact .inr
    · rintro (hmapped | hcut)
      · exact absurd hnul hmapped.not_mem
      · exact hcut
  · have hall : takenPart [] line = line := by
      rcases hends with hall | hfull
      · exact hall
      · exact absurd (mem_edited_of_full hbegins hshort hfull) hnul
    rw [hall] at hnul ⊢
    rw [takeWhile_of_noNul hnul, edited_eq_typedText_iff]
    constructor
    · exact .inl
    · rintro (hmapped | hcut)
      · exact hmapped
      · exact absurd hcut.mem hnul

/-- Of every line with fewer than 255 characters the string in the buffer is the
text typed, exactly when since the line was last empty only keys with a character
were pressed, or the first NUL that stays in the line has the text typed in front
of it. -/
theorem command_eq_typedText_iff {line rest : List UInt8}
    (hline : takeLine (k.keysPressed (scanCodes polls)) = some (line, rest))
    (hshort : line.countP (fun c => c ≠ 0 ∧ c ≠ 0x08) < 255) :
    ∃ console' buffer' k' polls',
      k.readInput 256 console buffer polls = some (console', buffer', k', polls') ∧
      (commandString buffer' = typedText line ↔
        MappedSinceEmpty (takenPart [] line) ∨ CutBehind (takenPart [] line) (typedText line)) := by
  obtain ⟨console', buffer', k', polls', hrun, hstring⟩ :=
    readInput_takenPart console buffer polls k hline
  refine ⟨console', buffer', k', polls', hrun, ?_⟩
  rw [hstring]
  exact takeWhile_takenPart_iff hshort

/-- The keys "l", "s", F1 and Enter: the NUL of F1 is behind the command. -/
theorem command_eq_typedText_iff_function_key :
    let console : Console := { memory := fun _ => 0x20, row := 0, col := 0, color := 0x0F }
    let k : Keyboard := { shiftPressed := false, capsLockEnabled := false }
    let polls : List Poll := [⟨0x1D, 0x26⟩, ⟨0x1C, 0x26⟩, ⟨0x1D, 0x1F⟩, ⟨0x1D, 0x3B⟩, ⟨0x1D, 0x1C⟩]
    ∃ console' buffer' k' polls',
      k.readInput 256 console (fun _ => 0) polls = some (console', buffer', k', polls') ∧
      commandString buffer' = [0x6C, 0x73] := by
  intro console k polls
  have hline : takeLine (k.keysPressed (scanCodes polls)) = some ([0x6C, 0x73, 0], []) := by decide
  obtain ⟨console', buffer', k', polls', hrun, hiff⟩ :=
    command_eq_typedText_iff console (fun _ => 0) polls k hline (by decide)
  refine ⟨console', buffer', k', polls', hrun, hiff.mpr (.inr ?_)⟩
  exact ⟨[0x6C, 0x73], [], by decide, by decide, by decide, .nil (by decide)⟩

/-- The keys "l", F1, "s" and Enter: the command compared is "l". -/
theorem command_of_function_key :
    let console : Console := { memory := fun _ => 0x20, row := 0, col := 0, color := 0x0F }
    let k : Keyboard := { shiftPressed := false, capsLockEnabled := false }
    let polls : List Poll := [⟨0x1D, 0x26⟩, ⟨0x1D, 0x3B⟩, ⟨0x1D, 0x1F⟩, ⟨0x1D, 0x1C⟩]
    takeLine (k.keysPressed (scanCodes polls)) = some ([0x6C, 0, 0x73], []) ∧
      typedText [0x6C, 0, 0x73] = [0x6C, 0x73] ∧
      ∃ console' buffer' k' polls',
        k.readInput 256 console (fun _ => 0) polls = some (console', buffer', k', polls') ∧
        commandString buffer' = [0x6C] := by
  intro console k polls
  have hline : takeLine (k.keysPressed (scanCodes polls)) = some ([0x6C, 0, 0x73], []) := by decide
  obtain ⟨console', buffer', k', polls', hrun, hstring⟩ :=
    readInput_takenPart console (fun _ => 0) polls k hline
  refine ⟨hline, by decide, console', buffer', k', polls', hrun, ?_⟩
  rw [hstring]
  decide

end Command

end EtyOS
