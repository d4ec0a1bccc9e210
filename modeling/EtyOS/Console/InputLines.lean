import Mathlib.Data.List.TakeWhile
import EtyOS.Console.LineEditor

/-!
# The lines that the calls of `read_input` return

`start_disktool` and `kernel_main` read a command with each turn of their loops
and execute what is in the buffer. A call ends on Enter, or as soon as 255
characters are in the buffer; what it has not taken is for the next call. The
calls return the lines that were entered exactly when no line fills the buffer.
-/

namespace EtyOS

open Library MemoryBlock

/-- A line after its backspaces. -/
def edited (line : List UInt8) : List UInt8 :=
  line.foldl (fun text c => if c = 0x08 then text.dropLast else text ++ [c]) []

/-- On the way to its Enter the line is 255 characters long at some point. -/
def FillsBuffer (line : List UInt8) : Prop :=
  ∃ typed, typed <+: line ∧ (edited typed).length = 255

instance (line : List UInt8) : Decidable (FillsBuffer line) :=
  decidable_of_iff (∃ typed ∈ line.inits, (edited typed).length = 255) (by
    simp only [List.mem_inits]
    rfl)

/-- The characters up to the first Enter, and those behind it. -/
def takeLine : List UInt8 → Option (List UInt8 × List UInt8)
  | [] => none
  | c :: keys =>
    if isEnter c then some ([], keys) else (takeLine keys).map fun r => (c :: r.1, r.2)

/-- The first `k` lines, and the characters behind them. -/
def takeLines : ℕ → List UInt8 → Option (List (List UInt8) × List UInt8)
  | 0, keys => some ([], keys)
  | k + 1, keys =>
    (takeLine keys).bind fun r => (takeLines k r.2).map fun r' => (r.1 :: r'.1, r'.2)

/-- The string in `char command[256]`. -/
def commandString (command : Memory) : List UInt8 :=
  ((List.range 256).map command).takeWhile (· ≠ 0)

/-- What `k` calls of `read_input` return, and the characters they leave. Between
the calls the screen and the buffer are the callers'. -/
def readCommands (console : ℕ → Console) (command : ℕ → Memory) :
    ℕ → List UInt8 → Option (List (List UInt8) × List UInt8)
  | 0, keys => some ([], keys)
  | k + 1, keys =>
    (readInput 256 (console 0) (command 0) keys).bind fun r =>
      (readCommands (fun n => console (n + 1)) (fun n => command (n + 1)) k r.2.2).map fun r' =>
        (commandString r.2.1 :: r'.1, r'.2)

section Editing

theorem edited_concat (line : List UInt8) (c : UInt8) :
    edited (line ++ [c]) = if c = 0x08 then (edited line).dropLast else edited line ++ [c] := by
  rw [edited, List.foldl_append]
  rfl

/-- A character of the edited line is one of the line. -/
theorem mem_of_mem_edited {line : List UInt8} {c : UInt8} (h : c ∈ edited line) : c ∈ line := by
  induction line using List.reverseRecOn with
  | nil => exact h
  | append_singleton line c' ih =>
    rw [edited_concat] at h
    split at h
    · exact List.mem_append_left _ (ih (List.mem_of_mem_dropLast h))
    · rcases List.mem_append.mp h with h | h
      · exact List.mem_append_left _ (ih h)
      · exact List.mem_append_right _ h

theorem edited_of_not_mem {line : List UInt8} (h : 0x08 ∉ line) : edited line = line := by
  induction line using List.reverseRecOn with
  | nil => rfl
  | append_singleton line c ih =>
    have hc : c ≠ 0x08 := fun hc => h (by simp [hc])
    rw [edited_concat, if_neg hc, ih fun hl => h (List.mem_append_left _ hl)]

end Editing

section NoNul

variable {bytes : List UInt8}

theorem forall_ne_nul (h : 0 ∉ bytes) : ∀ c ∈ bytes, decide (c ≠ 0) = true := by
  intro c hc
  exact decide_eq_true fun hzero => h (hzero ▸ hc)

theorem takeWhile_of_noNul (h : 0 ∉ bytes) : bytes.takeWhile (· ≠ 0) = bytes :=
  List.takeWhile_eq_self_iff.mpr (forall_ne_nul h)

end NoNul

section TakeLine

theorem takeLine_append {line : List UInt8} {enter : UInt8} (henter : isEnter enter)
    (hline : ∀ c ∈ line, ¬isEnter c) (rest : List UInt8) :
    takeLine (line ++ enter :: rest) = some (line, rest) := by
  induction line with
  | nil => rw [List.nil_append, takeLine, if_pos henter]
  | cons c line ih =>
    have hc := hline c (by simp)
    have hrest := ih fun c' hc' => hline c' (List.mem_cons_of_mem c hc')
    rw [List.cons_append, takeLine, if_neg hc, hrest]
    rfl

theorem takeLine_eq_some {keys line rest : List UInt8} (h : takeLine keys = some (line, rest)) :
    ∃ enter, isEnter enter ∧ keys = line ++ enter :: rest ∧ ∀ c ∈ line, ¬isEnter c := by
  induction keys generalizing line with
  | nil => cases h
  | cons c keys ih =>
    rw [takeLine] at h
    by_cases hc : isEnter c
    · rw [if_pos hc] at h
      cases h
      exact ⟨c, hc, rfl, by simp⟩
    · rw [if_neg hc] at h
      obtain ⟨⟨line', rest'⟩, hnext, heq⟩ := Option.map_eq_some_iff.mp h
      cases heq
      obtain ⟨enter, henter, rfl, hline⟩ := ih hnext
      refine ⟨enter, henter, rfl, ?_⟩
      intro c' hc'
      rcases List.mem_cons.mp hc' with rfl | hc'
      · exact hc
      · exact hline c' hc'

end TakeLine

namespace LineEditor

/-- The buffer holds the edited form of what was typed, and zeros behind it. -/
structure Holds (e : LineEditor) (typed : List UInt8) : Prop where
  index : e.i = (edited typed).length
  buffer : ∀ j < 256, e.buffer j = ((edited typed)[j]?).getD 0

variable {e : LineEditor} {typed : List UInt8}

theorem holds_start (console : Console) (buffer : Memory) :
    (start 256 console buffer).Holds [] where
  index := rfl
  buffer := by
    intro j hj
    simp only [start, memoryZero, Memory.fill_apply]
    rw [if_pos (by omega)]
    rfl

theorem Holds.backspace (h : e.Holds typed) (hroom : e.i < 255) :
    (e.key 0x08).Holds (typed ++ [0x08]) := by
  obtain ⟨hi, hbuffer⟩ := h
  have hedited : edited (typed ++ [0x08]) = (edited typed).dropLast := by
    rw [edited_concat, if_pos rfl]
  by_cases hpos : 0 < e.i
  · rw [key_backspace hpos]
    constructor
    · rw [hedited, List.length_dropLast, ← hi]
    · intro j hj
      simp only [hedited, List.getElem?_dropLast, ← hi]
      by_cases hlast : j = e.i - 1
      · rw [hlast, Function.update_self, if_neg (by omega)]
        rfl
      · rw [Function.update_of_ne hlast, hbuffer j hj]
        by_cases hin : j < e.i - 1
        · rw [if_pos hin]
        · rw [if_neg hin, List.getElem?_eq_none (by omega)]
  · have hnil : edited typed = [] := List.eq_nil_of_length_eq_zero (by omega)
    rw [key_backspace_empty (by omega)]
    constructor
    · rw [hedited, hnil, hi, hnil]
      rfl
    · intro j hj
      rw [hbuffer j hj, hedited, hnil]
      rfl

theorem Holds.char (h : e.Holds typed) {c : UInt8} (hc : c ≠ 0x08) :
    (e.key c).Holds (typed ++ [c]) := by
  obtain ⟨hi, hbuffer⟩ := h
  have hedited : edited (typed ++ [c]) = edited typed ++ [c] := by
    rw [edited_concat, if_neg hc]
  rw [key_char hc]
  constructor
  · rw [hedited, List.length_append, List.length_singleton, ← hi]
  · intro j hj
    simp only [hedited]
    by_cases hlast : j = e.i
    · rw [hlast, Function.update_self, hi, List.getElem?_concat_length]
      rfl
    · rw [Function.update_of_ne hlast, hbuffer j hj]
      rcases Nat.lt_or_gt_of_ne hlast with hlt | hgt
      · rw [List.getElem?_append_left (by omega)]
      · rw [List.getElem?_eq_none (by omega), List.getElem?_eq_none]
        rw [List.length_append, List.length_singleton]
        omega

theorem Holds.key (h : e.Holds typed) (hroom : e.i < 255) (c : UInt8) :
    (e.key c).Holds (typed ++ [c]) := by
  by_cases hc : c = 0x08
  · subst hc
    exact h.backspace hroom
  · exact h.char hc

theorem key_index_le (c : UInt8) (e : LineEditor) : (e.key c).i ≤ e.i + 1 := by
  unfold LineEditor.key
  split
  · split
    · exact (Nat.sub_le _ _).trans (Nat.le_succ _)
    · exact Nat.le_succ _
  · exact le_rfl

/-- The loop ends at once when the buffer is full. -/
theorem loop_full {keys : List UInt8} (hfull : ¬e.i < 255) : loop 256 keys e = some (e, keys) := by
  cases keys with
  | nil => exact if_neg hfull
  | cons c keys => exact if_neg hfull

/-- With a full buffer the loop leaves the whole line. -/
theorem loop_line_full {line : List UInt8} {enter : UInt8} (rest : List UInt8)
    (hholds : e.Holds typed) (hshort : e.i ≤ 255) (hfull : ¬e.i < 255) :
    ∃ taken more e', line = taken ++ more ∧ (edited (typed ++ taken)).length = 255 ∧
      loop 256 (line ++ enter :: rest) e = some (e', more ++ enter :: rest) ∧
      e'.Holds (typed ++ taken) := by
  refine ⟨[], line, e, rfl, ?_, loop_full hfull, ?_⟩
  · rw [List.append_nil, ← hholds.index]
    omega
  · rwa [List.append_nil]

/-- What the loop does with a line: it stops on the way when the buffer is
full, or it takes the whole line and its Enter. The induction is on what is
left of the line. -/
theorem loop_line {line : List UInt8} {enter : UInt8} (henter : isEnter enter)
    (hline : ∀ c ∈ line, ¬isEnter c) (rest : List UInt8) (hholds : e.Holds typed)
    (hshort : e.i ≤ 255) :
    (∃ taken more e', line = taken ++ more ∧ (edited (typed ++ taken)).length = 255 ∧
      loop 256 (line ++ enter :: rest) e = some (e', more ++ enter :: rest) ∧
      e'.Holds (typed ++ taken)) ∨
    (¬∃ taken, taken <+: line ∧ (edited (typed ++ taken)).length = 255) ∧
      ∃ e', loop 256 (line ++ enter :: rest) e = some (e', rest) ∧ e'.Holds (typed ++ line) ∧
        e'.i < 255 := by
  induction line generalizing e typed with
  | nil =>
    by_cases hroom : e.i < 255
    · refine .inr ⟨?_, e, ?_, ?_, hroom⟩
      · rintro ⟨taken, htaken, hlength⟩
        rw [List.prefix_nil.mp htaken, List.append_nil, ← hholds.index] at hlength
        omega
      · rw [List.nil_append, loop, if_pos hroom, if_pos henter]
      · rwa [List.append_nil]
    · exact .inl (loop_line_full rest hholds hshort hroom)
  | cons c line ih =>
    by_cases hroom : e.i < 255
    · have hc : ¬isEnter c := hline c (by simp)
      have hloop : loop 256 (c :: line ++ enter :: rest) e =
          loop 256 (line ++ enter :: rest) (e.key c) := by
        rw [List.cons_append, loop, if_pos hroom, if_neg hc]
      have hnext := key_index_le c e
      rw [hloop]
      rcases ih (fun c' hc' => hline c' (List.mem_cons_of_mem c hc')) (hholds.key hroom c)
        (by omega) with ⟨taken, more, e', rfl, hlength, hrun, hholds'⟩ | ⟨hnone, e', hrun, hholds', hlt⟩
      · rw [List.append_assoc] at hlength hholds'
        exact .inl ⟨c :: taken, more, e', rfl, hlength, hrun, hholds'⟩
      · rw [List.append_assoc] at hholds'
        refine .inr ⟨?_, e', hrun, hholds', hlt⟩
        rintro ⟨taken, htaken, hlength⟩
        cases taken with
        | nil =>
          rw [List.append_nil, ← hholds.index] at hlength
          omega
        | cons c' taken =>
          obtain ⟨hfirst, hrest⟩ := List.cons_prefix_cons.mp htaken
          rw [hfirst, List.append_cons] at hlength
          exact hnone ⟨taken, hrest, hlength⟩
    · exact .inl (loop_line_full rest hholds hshort hroom)

/-- The string in the buffer is its text up to the first NUL. -/
theorem Holds.commandString_takeWhile (h : e.Holds typed) (hshort : (edited typed).length ≤ 255) :
    commandString (Function.update e.buffer e.i 0) = (edited typed).takeWhile (· ≠ 0) := by
  obtain ⟨hi, hbuffer⟩ := h
  have hbytes : (List.range 256).map (Function.update e.buffer e.i 0) =
      edited typed ++ List.replicate (256 - (edited typed).length) 0 := by
    apply List.ext_getElem
    · simp only [List.length_map, List.length_range, List.length_append, List.length_replicate]
      omega
    · intro j hj hj'
      rw [List.length_map, List.length_range] at hj
      rw [List.getElem_map, List.getElem_range]
      by_cases htext : j < (edited typed).length
      · rw [Function.update_of_ne (by omega), hbuffer j hj, List.getElem_append_left htext,
          List.getElem?_eq_getElem htext]
        rfl
      · rw [List.getElem_append_right (by omega), List.getElem_replicate]
        by_cases hend : j = e.i
        · rw [hend, Function.update_self]
        · rw [Function.update_of_ne hend, hbuffer j hj, List.getElem?_eq_none (by omega)]
          rfl
  rw [EtyOS.commandString, hbytes, List.takeWhile_append]
  split
  · rename_i hall
    rw [List.takeWhile_replicate, if_neg (by simp), List.append_nil]
    exact ((List.takeWhile_prefix _).eq_of_length hall).symm
  · rfl

/-- A buffer without NUL in its text is read back as the text. -/
theorem Holds.commandString (h : e.Holds typed) (hnul : 0 ∉ edited typed)
    (hshort : (edited typed).length ≤ 255) :
    commandString (Function.update e.buffer e.i 0) = edited typed := by
  rw [h.commandString_takeWhile hshort]
  exact takeWhile_of_noNul hnul

end LineEditor

/-- What a call returns and leaves, when a line is entered. -/
theorem readInput_line {line : List UInt8} {enter : UInt8} (henter : isEnter enter)
    (hline : ∀ c ∈ line, ¬isEnter c) (hnul : 0 ∉ line) (rest : List UInt8) (console : Console)
    (buffer : Memory) :
    (∃ taken more console' buffer', line = taken ++ more ∧ (edited taken).length = 255 ∧
      readInput 256 console buffer (line ++ enter :: rest) =
        some (console', buffer', more ++ enter :: rest) ∧
      commandString buffer' = edited taken) ∨
    ¬FillsBuffer line ∧ (edited line).length < 255 ∧ ∃ console' buffer',
      readInput 256 console buffer (line ++ enter :: rest) = some (console', buffer', rest) ∧
      commandString buffer' = edited line := by
  have hstart := LineEditor.holds_start console buffer
  rcases LineEditor.loop_line henter hline rest hstart (Nat.zero_le _) with
    ⟨taken, more, e', rfl, hlength, hrun, hholds⟩ | ⟨hnone, e', hrun, hholds, hlt⟩
  · rw [List.nil_append] at hlength hholds
    have htaken : 0 ∉ edited taken := fun h => hnul (List.mem_append_left _ (mem_of_mem_edited h))
    refine .inl ⟨taken, more, e'.console, Function.update e'.buffer e'.i 0, rfl, hlength, ?_,
      hholds.commandString htaken hlength.le⟩
    rw [readInput, hrun]
    rfl
  · rw [List.nil_append] at hholds
    have hedited : 0 ∉ edited line := fun h => hnul (mem_of_mem_edited h)
    have hshort : (edited line).length < 255 := by
      rwa [← hholds.index]
    refine .inr ⟨hnone, hshort, e'.console, Function.update e'.buffer e'.i 0, ?_,
      hholds.commandString hedited hshort.le⟩
    rw [readInput, hrun]
    rfl

section Counting

/-- The number of times Enter was pressed. -/
def enters (keys : List UInt8) : ℕ := keys.countP fun c => isEnter c

theorem enters_append (keys keys' : List UInt8) :
    enters (keys ++ keys') = enters keys + enters keys' := List.countP_append

theorem enters_cons_of_isEnter {c : UInt8} (hc : isEnter c) (keys : List UInt8) :
    enters (c :: keys) = enters keys + 1 := List.countP_cons_of_pos (by simpa using hc)

theorem enters_eq_zero {keys : List UInt8} (h : ∀ c ∈ keys, ¬isEnter c) : enters keys = 0 := by
  rw [enters, List.countP_eq_zero]
  intro c hc
  simpa using h c hc

theorem takeLine_enters {keys line rest : List UInt8} (h : takeLine keys = some (line, rest)) :
    enters keys = enters rest + 1 := by
  obtain ⟨enter, henter, rfl, hline⟩ := takeLine_eq_some h
  rw [enters_append, enters_eq_zero hline, enters_cons_of_isEnter henter, Nat.zero_add]

theorem takeLines_enters {k : ℕ} {keys rest : List UInt8} {lines : List (List UInt8)}
    (h : takeLines k keys = some (lines, rest)) : enters keys = enters rest + k := by
  induction k generalizing keys lines with
  | zero =>
    cases h
    rfl
  | succ k ih =>
    obtain ⟨⟨line, rest₁⟩, hline, hrest⟩ := Option.bind_eq_some_iff.mp h
    obtain ⟨⟨lines', rest₂⟩, hlines, heq⟩ := Option.map_eq_some_iff.mp hrest
    cases heq
    rw [takeLine_enters hline, ih hlines]
    omega

/-- A call takes one Enter at most. -/
theorem readInput_enters {console console' : Console} {buffer buffer' : Memory}
    {keys rest : List UInt8}
    (h : readInput 256 console buffer keys = some (console', buffer', rest)) :
    enters keys ≤ enters rest + 1 := by
  obtain ⟨⟨e, rest'⟩, hloop, heq⟩ := Option.map_eq_some_iff.mp h
  cases heq
  obtain ⟨typed, hhead, hends⟩ := LineEditor.loop_atHead hloop
  have htyped := enters_eq_zero hhead.not_isEnter
  rcases hends with ⟨-, rfl⟩ | ⟨-, c, hc, rfl⟩
  · rw [enters_append, htyped, Nat.zero_add]
    exact Nat.le_succ _
  · rw [enters_append, htyped, enters_cons_of_isEnter hc, Nat.zero_add]

theorem readCommands_enters {console : ℕ → Console} {command : ℕ → Memory} {k : ℕ}
    {keys rest : List UInt8} {commands : List (List UInt8)}
    (h : readCommands console command k keys = some (commands, rest)) :
    enters keys ≤ enters rest + k := by
  induction k generalizing console command keys commands with
  | zero =>
    cases h
    exact le_rfl
  | succ k ih =>
    obtain ⟨⟨console', command', rest₁⟩, hcall, hrest⟩ := Option.bind_eq_some_iff.mp h
    obtain ⟨⟨commands', rest₂⟩, hcommands, heq⟩ := Option.map_eq_some_iff.mp hrest
    cases heq
    calc enters keys
        ≤ enters rest₁ + 1 := readInput_enters hcall
      _ ≤ enters rest₂ + k + 1 := Nat.succ_le_succ (ih hcommands)

end Counting

section Commands

variable {console : ℕ → Console} {command : ℕ → Memory} {k : ℕ} {keys rest : List UInt8}
  {lines : List (List UInt8)}

/-- With a line that fills the buffer among them, the calls leave an Enter too many. -/
theorem enters_lt_of_fillsBuffer (hnul : 0 ∉ keys) (hlines : takeLines k keys = some (lines, rest))
    (hfills : ∃ line ∈ lines, FillsBuffer line) {commands : List (List UInt8)}
    {rest' : List UInt8} (hrun : readCommands console command k keys = some (commands, rest')) :
    enters rest < enters rest' := by
  induction k generalizing console command keys lines commands with
  | zero =>
    cases hlines
    obtain ⟨line, hmem, -⟩ := hfills
    cases hmem
  | succ k ih =>
    obtain ⟨⟨line, rest₁⟩, hline, htail⟩ := Option.bind_eq_some_iff.mp hlines
    obtain ⟨⟨lines', rest₂⟩, hlines', heq⟩ := Option.map_eq_some_iff.mp htail
    cases heq
    obtain ⟨⟨console₁, command₁, left⟩, hcall, hothers⟩ := Option.bind_eq_some_iff.mp hrun
    obtain ⟨⟨commands', rest₃⟩, hcommands, heq⟩ := Option.map_eq_some_iff.mp hothers
    cases heq
    obtain ⟨enter, henter, rfl, hchars⟩ := takeLine_eq_some hline
    rcases readInput_line henter hchars (fun h => hnul (List.mem_append_left _ h)) rest₁
        (console 0) (command 0) with
      ⟨taken, more, console', command', -, -, hread, -⟩ | ⟨hnone, -, console', command', hread, -⟩
    · cases hcall.symm.trans hread
      have hleft : enters (more ++ enter :: rest₁) ≤ enters rest₃ + k :=
        readCommands_enters hcommands
      have hcount : enters rest₁ = enters rest₂ + k := takeLines_enters hlines'
      rw [enters_append, enters_cons_of_isEnter henter] at hleft
      change enters rest₂ < enters rest₃
      omega
    · cases hcall.symm.trans hread
      refine ih (fun h => hnul (by simp [h])) hlines' ?_ hcommands
      obtain ⟨line', hmem, hline'⟩ := hfills
      rcases List.mem_cons.mp hmem with rfl | hmem
      · exact absurd hline' hnone
      · exact ⟨line', hmem, hline'⟩

/-- The first `k` calls return the first `k` lines, edited and cut to 255
characters, and leave what follows these lines, exactly when none of them is
255 characters long at some point before its Enter. -/
theorem readCommands_eq_lines_iff (console : ℕ → Console) (command : ℕ → Memory) {k : ℕ}
    {keys rest : List UInt8} {lines : List (List UInt8)} (hnul : 0 ∉ keys)
    (hlines : takeLines k keys = some (lines, rest)) :
    readCommands console command k keys =
        some (lines.map fun line => (edited line).take 255, rest) ↔
      ∀ line ∈ lines, ¬FillsBuffer line := by
  constructor
  · intro hrun line hmem hfills
    exact lt_irrefl _ (enters_lt_of_fillsBuffer hnul hlines ⟨line, hmem, hfills⟩ hrun)
  · intro hnone
    induction k generalizing console command keys lines with
    | zero =>
      cases hlines
      rfl
    | succ k ih =>
      obtain ⟨⟨line, rest₁⟩, hline, htail⟩ := Option.bind_eq_some_iff.mp hlines
      obtain ⟨⟨lines', rest₂⟩, hlines', heq⟩ := Option.map_eq_some_iff.mp htail
      cases heq
      have hfirst : ¬FillsBuffer line := hnone line (List.mem_cons_self ..)
      obtain ⟨enter, henter, rfl, hchars⟩ := takeLine_eq_some hline
      rcases readInput_line henter hchars (fun h => hnul (List.mem_append_left _ h)) rest₁
          (console 0) (command 0) with
        ⟨taken, more, -, -, rfl, hlength, -, -⟩ | ⟨-, hshort, console', command', hread, hcommand⟩
      · exact absurd ⟨taken, List.prefix_append _ _, hlength⟩ hfirst
      · have hothers := ih (fun n => console (n + 1)) (fun n => command (n + 1))
          (fun h => hnul (by simp [h])) hlines' fun line' hmem =>
            hnone line' (List.mem_cons_of_mem line hmem)
        rw [readCommands, hread, Option.bind_some, hothers, Option.map_some, hcommand, List.map_cons,
          List.take_of_length_le hshort.le]

theorem readCommands_eq_lines_iff_backspace :
    readCommands (fun _ => { memory := fun _ => 0x20, row := 0, col := 0, color := 0x0F })
        (fun _ _ => 0) 1 [0x61, 0x08, 0x62, 0x0A] = some ([[0x62]], []) := by
  have hnul : (0 : UInt8) ∉ [0x61, 0x08, 0x62, 0x0A] := by decide
  have hlines : takeLines 1 [0x61, 0x08, 0x62, 0x0A] = some ([[0x61, 0x08, 0x62]], []) := rfl
  have hnone : ∀ line ∈ [[(0x61 : UInt8), 0x08, 0x62]], ¬FillsBuffer line := by decide
  exact (readCommands_eq_lines_iff _ _ hnul hlines).mpr hnone

/-- A line of 255 characters is returned without waiting for its Enter. -/
theorem readInput_longLine {line : List UInt8} {enter : UInt8} (henter : isEnter enter)
    (hline : ∀ c ∈ line, ¬isEnter c) (hnul : 0 ∉ line) (hplain : 0x08 ∉ line)
    (hlength : line.length = 255) (rest : List UInt8) (console : Console) (buffer : Memory) :
    ∃ console' buffer', readInput 256 console buffer (line ++ enter :: rest) =
      some (console', buffer', enter :: rest) ∧ commandString buffer' = line := by
  rcases readInput_line henter hline hnul rest console buffer with
    ⟨taken, more, console', buffer', rfl, htaken, hread, hcommand⟩ | ⟨-, hshort, -⟩
  · rw [edited_of_not_mem fun h => hplain (List.mem_append_left _ h)] at htaken hcommand
    have hmore : more = [] := by
      rw [List.length_append, htaken] at hlength
      exact List.eq_nil_of_length_eq_zero (by omega)
    subst hmore
    rw [List.append_nil] at hread ⊢
    exact ⟨console', buffer', hread, hcommand⟩
  · rw [edited_of_not_mem hplain, hlength] at hshort
    exact absurd hshort (lt_irrefl _)

/-- 255 times 'a', Enter, 'b', Enter: the first Enter makes an empty command of its own. -/
theorem rest_of_line_is_command :
    let longLine : List UInt8 := List.replicate 255 0x61
    let keys := longLine ++ [0x0A, 0x62, 0x0A]
    let commands := (readCommands
      (fun _ => { memory := fun _ => 0x20, row := 0, col := 0, color := 0x0F })
      (fun _ _ => 0) 2 keys).map Prod.fst
    0 ∉ keys ∧ takeLines 2 keys = some ([longLine, [0x62]], []) ∧ commands = some [longLine, []] ∧
      commands ≠ some ([longLine, [0x62]].map fun line => (edited line).take 255) := by
  intro longLine keys commands
  have hchars : ∀ c ∈ longLine, c = 0x61 := fun c hc => List.eq_of_mem_replicate hc
  have hnot : ∀ c, c ≠ 0x61 → c ∉ longLine := fun c hc h => hc (hchars c h)
  have hline : ∀ c ∈ longLine, ¬isEnter c := by
    intro c hc
    rw [hchars c hc]
    decide
  have henter : isEnter 0x0A := .inl rfl
  have hnul : 0 ∉ keys := by
    intro h
    rcases List.mem_append.mp h with h | h
    · exact hnot 0 (by decide) h
    · exact absurd h (by decide)
  have hlines : takeLines 2 keys = some ([longLine, [0x62]], []) := by
    rw [takeLines, takeLine_append henter hline]
    rfl
  have hcommands : commands = some [longLine, []] := by
    obtain ⟨console₁, command₁, hread₁, hcommand₁⟩ := readInput_longLine henter hline
      (hnot 0 (by decide)) (hnot 0x08 (by decide)) (List.length_replicate ..) [0x62, 0x0A]
      { memory := fun _ => 0x20, row := 0, col := 0, color := 0x0F } fun _ => 0
    -- the second call finds the Enter at once
    rcases readInput_line henter (by simp) List.not_mem_nil [0x62, 0x0A]
      { memory := fun _ => 0x20, row := 0, col := 0, color := 0x0F } (fun _ => 0) with
      ⟨taken, more, -, -, hnil, hlength, -⟩ | ⟨-, -, console₂, command₂, hread₂, hcommand₂⟩
    · rw [(List.append_eq_nil_iff.mp hnil.symm).1] at hlength
      exact absurd hlength (by decide)
    · rw [List.nil_append] at hread₂
      change (readCommands _ _ 2 (longLine ++ 0x0A :: [0x62, 0x0A])).map Prod.fst = _
      rw [readCommands, hread₁, Option.bind_some, readCommands, hread₂, Option.bind_some, hcommand₁,
        hcommand₂]
      rfl
  refine ⟨hnul, hlines, hcommands, ?_⟩
  rw [hcommands]
  intro heq
  exact absurd (List.cons.inj (List.cons.inj (Option.some.inj heq)).2).1 (by decide)

end Commands

end EtyOS
