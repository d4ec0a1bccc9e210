import EtyOS.Kernel.Running

/-!
# The screen of the running kernel

What `kernel_main` and the echo of `read_input` do to the console is a sequence of
calls of `print.c`. So the bounds of the console hold at every moment, a screen that
was cleared in a background keeps it, and `print_clear` always finds column 0.
-/

namespace EtyOS

open Library Main

/-! ### The calls of `print.c` -/

namespace ScreenCall

/-- The calls of the console that a call stands for: `print_dec` prints its digits. -/
def consoleCalls (digits : Memory) : ScreenCall → List ConsoleCall
  | .call (.str text) => [.str (chars text)]
  | .call .newline => [.newline]
  | .call (.char c) => [.char c]
  | .call (.int n) => [.int n digits]
  | .call (.dec n) => (numeral 10 n.toNat).map .char
  | .call (.setColor foreground background) => [.setColor foreground background]
  | .clear => [.clear]

end ScreenCall

namespace ConsoleCall

theorem runAll_append (calls calls' : List ConsoleCall) (s : Console) :
    runAll (calls ++ calls') s = runAll calls' (runAll calls s) := List.foldl_append

theorem runAll_map_char (str : List UInt8) (s : Console) :
    runAll (str.map .char) s = Console.emit str s := List.foldl_map

end ConsoleCall

theorem ScreenCall.run_eq (digits : Memory) (c : ScreenCall) (s : Console) :
    c.run digits s = ConsoleCall.runAll (c.consoleCalls digits) s := by
  cases c with
  | clear =>
    rw [run, consoleCalls, ConsoleCall.runAll, List.foldl_cons, List.foldl_nil, ConsoleCall.run]
  | call c =>
    cases c with
    | str text => rfl
    | newline => rfl
    | char c => rfl
    | int n => rfl
    | setColor foreground background => rfl
    | dec n =>
      rw [run, consoleCalls, ConsoleCall.runAll_map_char]
      exact Console.printDec_eq_emit n digits s

theorem ScreenCall.runAll_cons (digits : Memory) (c : ScreenCall) (calls : List ScreenCall)
    (s : Console) : runAll digits (c :: calls) s = runAll digits calls (c.run digits s) := rfl

theorem ScreenCall.runAll_eq (digits : Memory) (calls : List ScreenCall) (s : Console) :
    runAll digits calls s = ConsoleCall.runAll (calls.flatMap (consoleCalls digits)) s := by
  induction calls generalizing s with
  | nil => rfl
  | cons c calls ih =>
    rw [runAll_cons, ih, run_eq, List.flatMap_cons, ConsoleCall.runAll_append]

/-- The console that `read_input` leaves is the one of its loop. -/
theorem Keyboard.exists_atHead {s s' : Console} {buffer buffer' : Memory} {polls rest : List Poll}
    {k k' : Keyboard} (h : k.readInput 256 s buffer polls = some (s', buffer', k', rest)) :
    ∃ typed e, LineEditor.AtHead 256 (LineEditor.start 256 s buffer) typed e ∧ e.console = s' := by
  have hkeys := Keyboard.readInput_eq 256 s buffer polls k
  rw [h, Option.map_some] at hkeys
  obtain ⟨⟨e, later⟩, hloop, heq⟩ := Option.map_eq_some_iff.mp hkeys.symm
  obtain ⟨typed, hhead, -⟩ := LineEditor.loop_atHead hloop
  exact ⟨typed, e, hhead, congrArg Prod.fst heq⟩

/-- The echo has the colour in effect. -/
theorem LineEditor.AtHead.color {n : ℕ} {e₀ e : LineEditor} {keys : List UInt8}
    (h : LineEditor.AtHead n e₀ keys e) : e.console.color = e₀.console.color := by
  induction h with
  | start => rfl
  | next _ _ _ ih =>
    unfold LineEditor.key
    split
    · split
      · exact (Console.printChar_color _ _).trans ih
      · exact ih
    · exact (Console.printChar_color _ _).trans ih

/-! ### The echo -/

/-- What the echo prints when `typed` comes behind `before`: a character as it is, and a
backspace while there is a character to take back. -/
def echoed (before : List UInt8) : List UInt8 → List UInt8
  | [] => []
  | c :: typed =>
    if c = 0x08 ∧ edited before = [] then echoed (before ++ [c]) typed
    else c :: echoed (before ++ [c]) typed

/-- One character of the line on the screen. -/
theorem LineEditor.Holds.key_console {e : LineEditor} {typed : List UInt8} (h : e.Holds typed)
    (c : UInt8) (later : List UInt8) :
    Console.emit (echoed typed (c :: later)) e.console =
      Console.emit (echoed (typed ++ [c]) later) (e.key c).console := by
  by_cases hc : c = 0x08
  · subst hc
    by_cases hempty : edited typed = []
    · have hi : e.i = 0 := by rw [h.index, hempty, List.length_nil]
      rw [echoed, if_pos ⟨rfl, hempty⟩, LineEditor.key_backspace_empty hi]
    · have hi : 0 < e.i := by
        rw [h.index]
        exact List.length_pos_of_ne_nil hempty
      rw [echoed, if_neg fun h => hempty h.2, LineEditor.key_backspace hi, Console.emit_cons]
  · rw [echoed, if_neg fun h => hc h.1, LineEditor.key_char hc, Console.emit_cons]

/-- The console that the loop of `read_input` leaves; the induction is on the characters. -/
theorem loop_echo {e e' : LineEditor} {typed typed' rest : List UInt8} {keys : List UInt8}
    (hholds : e.Holds typed) (hcommand : takeCommand typed keys = some (typed', rest))
    (hloop : LineEditor.loop 256 keys e = some (e', rest)) :
    ∃ later, typed' = typed ++ later ∧ e'.console = Console.emit (echoed typed later) e.console := by
  induction keys generalizing e typed with
  | nil =>
    rw [takeCommand, ← hholds.index] at hcommand
    rw [LineEditor.loop] at hloop
    by_cases hroom : e.i < 255
    · rw [if_pos hroom] at hcommand
      cases hcommand
    · rw [if_neg hroom] at hcommand hloop
      cases hcommand
      cases hloop
      exact ⟨[], (List.append_nil _).symm, rfl⟩
  | cons c keys ih =>
    rw [takeCommand, ← hholds.index] at hcommand
    rw [LineEditor.loop] at hloop
    by_cases hroom : e.i < 255
    · rw [if_pos hroom] at hcommand hloop
      by_cases hc : isEnter c
      · rw [if_pos hc] at hcommand hloop
        cases hcommand
        cases hloop
        exact ⟨[], (List.append_nil _).symm, rfl⟩
      · rw [if_neg hc] at hcommand hloop
        obtain ⟨later, rfl, hconsole⟩ := ih (hholds.key hroom c) hcommand hloop
        refine ⟨c :: later, List.append_assoc _ _ _, ?_⟩
        rw [hconsole, hholds.key_console]
    · rw [if_neg hroom] at hcommand hloop
      cases hcommand
      cases hloop
      exact ⟨[], (List.append_nil _).symm, rfl⟩

/-! ### Bounds -/

/-- The cursor is on the screen or just behind the end of a row, and outside the video
memory everything is as in `memory`. -/
structure Console.Bounded (memory : Memory) (s : Console) : Prop where
  row : s.row < numRows
  col : s.col ≤ numCols
  outside : ∀ a, a < videoBuffer ∨ videoBuffer + sizeofChar * (numCols * numRows) ≤ a →
    s.memory a = memory a

theorem bounded_runAll (memory : Memory) (calls : List ConsoleCall) :
    (ConsoleCall.runAll calls (Running.bootConsole memory)).Bounded memory := by
  have hboot : RecordedConsole.InBounds memory (RecordedConsole.boot memory 0x0F) :=
    { row := (by decide : 0 < numRows)
      col := Nat.zero_le _
      cells := by simp [RecordedConsole.boot]
      outside := fun _ _ => rfl }
  have hbounds := hboot.runAll calls
  have hforget := Console.runAll_forget (RecordedConsole.boot memory 0x0F) calls
  have hstart : (RecordedConsole.boot memory 0x0F).forget = Running.bootConsole memory := rfl
  rw [hstart] at hforget
  rw [← hforget]
  exact ⟨hbounds.row, hbounds.col, hbounds.outside⟩

namespace Running

variable {stack : Stack} {m : Machine} {memory : Memory} {r r' : Running}
  {polls rest : List Poll} {line : CString} {lines : List CString} {n : ℕ}

/-- The calls of `print.c` behind what `kernel_main` has put on the screen from `t` to `t'`. -/
def outputCalls (stack : Stack) (t t' : MainState) : List ConsoleCall :=
  (t'.output.drop t.output.length).flatMap (ScreenCall.consoleCalls stack.digits)

/-- The calls of `print.c` in the turns that these polls make: each turn echoes the characters
that it takes, and then puts out what the line does. -/
def turnsCalls (stack : Stack) : ℕ → Running → List Poll → List ConsoleCall
  | 0, _, _ => []
  | n + 1, r, polls =>
    match takeCommand [] (r.keys polls), r.turn stack polls with
    | some (typed, _), some (_, r', rest) =>
      (echoed [] typed).map .char ++ outputCalls stack r.main r'.main ++ turnsCalls stack n r' rest
    | _, _ => []

theorem display_eq_outputCalls (t t' : MainState) (s : Console) :
    display stack t t' s = ConsoleCall.runAll (outputCalls stack t t') s :=
  ScreenCall.runAll_eq _ _ _

/-- The console that `read_input` leaves, from the characters that it takes. -/
theorem readInput_console {console : Console} {command : Memory} {keyboard : Keyboard}
    (hread : r.keyboard.readInput 256 r.console (stack.command r.main) polls =
      some (console, command, keyboard, rest)) :
    ∃ typed later, takeCommand [] (r.keys polls) = some (typed, later) ∧
      console = ConsoleCall.runAll ((echoed [] typed).map .char) r.console := by
  obtain ⟨typed, later, e, htyped, hloop, -, -, rfl⟩ := readInput_loop hread
  have hstart := LineEditor.holds_start r.console (stack.command r.main)
  obtain ⟨taken, rfl, hconsole⟩ := loop_echo hstart htyped hloop
  refine ⟨_, later, htyped, ?_⟩
  rw [hconsole, ConsoleCall.runAll_map_char]
  rfl

/-- The calls of one turn. -/
theorem turn_calls (h : r.turn stack polls = some (line, r', rest)) :
    ∃ typed later, takeCommand [] (r.keys polls) = some (typed, later) ∧
      r'.console = ConsoleCall.runAll
        ((echoed [] typed).map .char ++ outputCalls stack r.main r'.main) r.console := by
  obtain ⟨console, command, hread, -, -, hconsole⟩ := turn_cases h
  obtain ⟨typed, later, htyped, hechoed⟩ := readInput_console hread
  refine ⟨typed, later, htyped, ?_⟩
  rw [ConsoleCall.runAll_append, ← hechoed, hconsole, display_eq_outputCalls]

/-- The calls of any number of turns. -/
theorem turns_calls (h : r.turns stack n polls = some (lines, r', rest)) :
    r'.console = ConsoleCall.runAll (turnsCalls stack n r polls) r.console := by
  induction n generalizing r polls lines with
  | zero =>
    cases h
    rfl
  | succ n ih =>
    obtain ⟨⟨line, r₁, rest₁⟩, hfirst, htail⟩ := Option.bind_eq_some_iff.mp h
    obtain ⟨⟨lines', r₂, rest₂⟩, hothers, hresult⟩ := Option.bind_eq_some_iff.mp htail
    cases hresult
    obtain ⟨typed, later, htyped, hconsole⟩ := turn_calls hfirst
    have hrest := ih hothers
    rw [turnsCalls, htyped, hfirst]
    dsimp only
    rw [ConsoleCall.runAll_append, ← hconsole]
    exact hrest

/-- What the first prompt has and every turn keeps holds after all turns. -/
theorem turns_induct {I : List CString → Running → Prop}
    (hboot : ∀ r, boot stack m memory = some r → I [] r)
    (hturn : ∀ lines r polls line r' rest, I lines r → r.turn stack polls = some (line, r', rest) →
      I (lines ++ [line]) r')
    (h₀ : boot stack m memory = some r) (h : r.turns stack n polls = some (lines, r', rest)) :
    I lines r' := by
  have hall : ∀ n polls r before lines, I before r → r.turns stack n polls = some (lines, r', rest) →
      I (before ++ lines) r' := by
    intro n
    induction n with
    | zero =>
      rintro polls r before lines hI h
      cases h
      rwa [List.append_nil]
    | succ n ih =>
      intro polls r before lines hI h
      obtain ⟨⟨line, r₁, rest₁⟩, hfirst, htail⟩ := Option.bind_eq_some_iff.mp h
      obtain ⟨⟨lines', r₂, rest₂⟩, hturns, hresult⟩ := Option.bind_eq_some_iff.mp htail
      cases hresult
      have hlater := ih _ _ _ _ (hturn _ _ _ _ _ _ hI hfirst) hturns
      rwa [List.append_assoc] at hlater
  exact hall n polls r [] lines (hboot r h₀) h

/-- From booting to any prompt the console is driven by these calls of `print.c` alone: what
booting puts out, and in every turn the echo of the characters taken and the output of the
line. At every moment on the way the cursor is in its bounds and the memory around the screen
is as it was before the kernel. -/
theorem screen_in_bounds (h₀ : boot stack m memory = some r)
    (h : r.turns stack n polls = some (lines, r', rest)) :
    let calls := outputCalls stack (.start m) r.main ++ turnsCalls stack n r polls
    r'.console = ConsoleCall.runAll calls (bootConsole memory) ∧
      ∀ before, before <+: calls →
        (ConsoleCall.runAll before (bootConsole memory)).Bounded memory := by
  refine ⟨?_, fun before _ => bounded_runAll memory before⟩
  rw [ConsoleCall.runAll_append, ← display_eq_outputCalls, ← (boot_eq_some h₀).2.1]
  exact turns_calls h

/-- The keys of "ls" and Enter, with a backspace in front that prints nothing. -/
theorem screen_in_bounds_ls :
    ∃ r, boot blankStack (blankMachine primaryMaster) (fun _ => 0) = some r ∧
      ∃ r' rest, r.turns blankStack 1 ([0x0E, 0x26, 0x1F, 0x1C].map (⟨1, ·⟩)) =
          some ([executed (0x08 :: chars "ls")], r', rest) ∧
        let calls := outputCalls blankStack (.start (blankMachine primaryMaster)) r.main ++
          turnsCalls blankStack 1 r ([0x0E, 0x26, 0x1F, 0x1C].map (⟨1, ·⟩))
        r'.console = ConsoleCall.runAll calls (bootConsole fun _ => 0) ∧
          ∀ before, before <+: calls →
            (ConsoleCall.runAll before (bootConsole fun _ => 0)).Bounded fun _ => 0 := by
  obtain ⟨r, hboot⟩ := exists_boot blankStack (blankMachine primaryMaster) (fun _ => 0)
  have hcommands : takeCommands 1 (r.keys ([0x0E, 0x26, 0x1F, 0x1C].map (⟨1, ·⟩))) =
      some ([executed (0x08 :: chars "ls")], []) := by
    rw [keys, (boot_eq_some hboot).2.2]
    rfl
  obtain ⟨r', rest, hturns, -⟩ := turns_of_takeCommands blankStack (boot_ready hboot) hcommands
  exact ⟨r, hboot, r', rest, hturns, screen_in_bounds hboot hturns⟩

end Running

/-! ### The background of the screen -/

/-- Every cell of the screen has the background `b`, and so has what is printed next. -/
structure Console.Painted (b : UInt8) (s : Console) : Prop where
  cells : s.screen.All numCols numRows fun ch : ScreenChar => ch.color >>> 4 = b % 16
  color : s.color >>> 4 = b % 16

namespace Console.Painted

variable {b : UInt8} {s : Console}

theorem printNewline (h : s.Painted b) : s.printNewline.Painted b where
  cells := by
    rw [printNewline_screen]
    exact h.cells.newline h.color
  color := by
    rw [printNewline_color]
    exact h.color

theorem printChar (h : s.Painted b) (c : UInt8) : (s.printChar c).Painted b where
  cells := by
    by_cases hnewline : c = 0x0A
    · rw [hnewline, printChar_newline]
      exact h.cells.newline h.color
    · by_cases hbackspace : c = 0x08
      · rw [hbackspace, printChar_backspace]
        exact h.cells.erase h.color
      · rw [printChar_other s hnewline hbackspace]
        exact h.cells.put h.color h.color
  color := by
    rw [printChar_color]
    exact h.color

theorem printStr (h : s.Painted b) (str : List UInt8) : (Console.printStr str s).Painted b := by
  induction str generalizing s with
  | nil => exact h
  | cons c str ih =>
    rw [printStr_cons]
    split
    · exact h
    · exact ih (h.printChar c)

theorem emit (h : s.Painted b) (str : List UInt8) : (Console.emit str s).Painted b := by
  induction str generalizing s with
  | nil => exact h
  | cons c str ih => exact ih (h.printChar c)

/-- A clear paints everything in the colour in effect. -/
theorem printClear (hcolor : s.color >>> 4 = b % 16) : s.printClear.Painted b := by
  obtain ⟨hcell, -, -, hkept⟩ := printClear_spec s
  refine ⟨fun k hk => ?_, by rw [hkept]; exact hcolor⟩
  rw [screen_cell, hcell k hk]
  exact hcolor

/-- A change of the colours to the same background. -/
theorem setColor {foreground : UInt8} (h : s.Painted b) (hforeground : foreground < 16) :
    (s.printSetColor foreground b).Painted b where
  cells := h.cells
  color := printSetColor_shiftRight hforeground b

theorem run (h : s.Painted b) (digits : Memory) {c : ScreenCall} (hc : c.Paints b) :
    (c.run digits s).Painted b := by
  match c, hc with
  | .call (.setColor _ _), ⟨hforeground, rfl⟩ => exact h.setColor hforeground
  | .call (.str text), _ => exact h.printStr (chars text)
  | .call .newline, _ => exact h.printNewline
  | .call (.char c), _ => exact h.printChar c
  | .call (.int n), _ =>
    rw [ScreenCall.run, printInt_eq_emit]
    exact h.emit _
  | .call (.dec n), _ =>
    rw [ScreenCall.run, printDec_eq_emit]
    exact h.emit _
  | .clear, _ => exact printClear h.color

theorem runAll (h : s.Painted b) (digits : Memory) {calls : List ScreenCall}
    (hcalls : ∀ c ∈ calls, c.Paints b) : (ScreenCall.runAll digits calls s).Painted b := by
  induction calls generalizing s with
  | nil => exact h
  | cons c calls ih =>
    obtain ⟨hc, hrest⟩ := List.forall_mem_cons.mp hcalls
    exact ih (h.run digits hc) hrest

theorem atHead {n : ℕ} {e₀ e : LineEditor} {keys : List UInt8}
    (h : LineEditor.AtHead n e₀ keys e) (hstart : e₀.console.Painted b) : e.console.Painted b := by
  induction h with
  | start => exact hstart
  | next _ _ _ ih =>
    unfold LineEditor.key
    split
    · split
      · exact ih.printChar 0x08
      · exact ih
    · exact ih.printChar _

/-- The echo keeps the background. -/
theorem readInput (h : s.Painted b) {s' : Console} {buffer buffer' : Memory}
    {polls rest : List Poll} {k k' : Keyboard}
    (hread : k.readInput 256 s buffer polls = some (s', buffer', k', rest)) : s'.Painted b := by
  obtain ⟨typed, e, hhead, rfl⟩ := Keyboard.exists_atHead hread
  exact atHead hhead h

end Console.Painted

/-- One of the lines is a `setcolor` that is accepted. -/
def SomeAccepted (lines : List CString) : Prop :=
  ∃ before line later, lines = before ++ line :: later ∧
    Accepts (Standing.after before).inDisktool line

theorem SomeAccepted.of_concat {lines : List CString} {line : CString}
    (h : SomeAccepted (lines ++ [line])) (hline : ¬Accepts (Standing.after lines).inDisktool line) :
    SomeAccepted lines := by
  obtain ⟨before, line', later, hlines, haccepts⟩ := h
  rcases List.eq_nil_or_concat later with rfl | ⟨later, last, rfl⟩
  · obtain ⟨rfl, hline'⟩ := List.append_inj' hlines rfl
    obtain rfl := (List.cons.inj hline').1
    exact absurd haccepts hline
  · rw [List.concat_eq_append, ← List.cons_append, ← List.append_assoc] at hlines
    exact ⟨before, line', later, (List.append_inj' hlines rfl).1, haccepts⟩

namespace Running

variable {stack : Stack} {m : Machine} {memory : Memory} {r r' : Running}
  {polls rest : List Poll} {line : CString} {lines : List CString} {n : ℕ}

theorem display_eq {t t' : MainState} {new : List ScreenCall} (h : t'.output = t.output ++ new)
    (s : Console) : display stack t t' s = ScreenCall.runAll stack.digits new s := by
  rw [display, h, List.drop_left]

/-- What `setcolor` makes of any screen when it accepts its number. -/
theorem painted_setcolorCalls (hline : requested line ≤ 14) (digits : Memory) (s : Console) :
    (ScreenCall.runAll digits (setcolorCalls line) s).Painted (requested line).toUInt8 := by
  have hwhite : (s.printNewline.printSetColor printColorWhite (requested line).toUInt8).color >>> 4 =
      (requested line).toUInt8 % 16 := printSetColor_shiftRight (by decide) _
  have hcleared := Console.Painted.printClear hwhite
  rw [setcolorCalls, if_pos hline, acceptedCalls, List.cons_append, List.cons_append,
    ScreenCall.runAll_cons, ScreenCall.runAll_cons, ScreenCall.runAll_cons]
  refine Console.Painted.runAll hcleared digits ?_
  simp [ScreenCall.Paints, PrintCall.Paints, prompt, printColorLightGray, printColorWhite,
    colorByte_toInt32]

/-- A turn keeps the background of the screen, or paints the whole screen anew. -/
theorem turn_painted (hwaits : r.main.Waits lines)
    (hcolor : colorByte r'.main.color = (Standing.after (lines ++ [line])).background)
    (hpainted : SomeAccepted lines → r.console.Painted (Standing.after lines).background)
    (h : r.turn stack polls = some (line, r', rest)) (hsome : SomeAccepted (lines ++ [line])) :
    r'.console.Painted (Standing.after (lines ++ [line])).background := by
  obtain ⟨console, command, hread, -, hexec, hconsole⟩ := turn_cases h
  by_cases haccepts : Accepts (Standing.after lines).inDisktool line
  · have hset : SetsColor r.main.inDisktool line := hwaits.inDisktool ▸ haccepts.1
    have houtput := (turn_setcolor stack.frame hset).result hexec
    rw [hconsole, display_eq houtput, Standing.after_concat, Standing.next, if_pos haccepts]
    exact painted_setcolorCalls haccepts.2 _ _
  · have hkept : (Standing.after (lines ++ [line])).background = (Standing.after lines).background := by
      rw [Standing.after_concat, Standing.next, if_neg haccepts]
    obtain ⟨new, houtput, hnew⟩ := (hwaits.turn hexec).2.output
    rw [hcolor, hkept] at hnew
    rw [hconsole, display_eq houtput, hkept]
    exact ((hpainted (hsome.of_concat haccepts)).readInput hread).runAll _ hnew

/-- Once a `setcolor` has been accepted, and as long as the rejected numbers agree with the
background that they meet, all 2000 characters on the screen have the background that was
accepted last, at every prompt. -/
theorem screen_has_background (h₀ : boot stack m memory = some r)
    (h : r.turns stack n polls = some (lines, r', rest)) (hagree : RejectedAgree lines)
    (hsome : SomeAccepted lines) :
    ∀ k < 80 * 25, (r'.console.cell k).color >>> 4 = (Standing.after lines).background := by
  have hinv : Reached stack.frame m lines r'.main ∧ (RejectedAgree lines → SomeAccepted lines →
      r'.console.Painted (Standing.after lines).background) := by
    refine turns_induct (I := fun lines r => Reached stack.frame m lines r.main ∧
      (RejectedAgree lines → SomeAccepted lines →
        r.console.Painted (Standing.after lines).background))
      (fun r hboot => ⟨boot_reached hboot, ?_⟩) (fun lines r polls line r' rest ⟨hr, ih⟩ hturn => ?_)
      h₀ h
    · rintro - ⟨before, line, later, hlines, -⟩
      exact absurd hlines.symm (by simp)
    · obtain ⟨-, -, -, -, hexec, -⟩ := turn_cases hturn
      have hr' := hr.concat hexec
      refine ⟨hr', fun hagree hsome => ?_⟩
      have hbefore := hagree.of_prefix (List.prefix_append _ _)
      exact turn_painted hr.waits (hr'.in_effect hagree).1 (ih hbefore) hturn hsome
  intro k hk
  have hcell := (hinv.2 hagree hsome).cells k hk
  have hle := Standing.after_le lines
  rw [Console.screen_cell] at hcell
  rw [hcell, ← UInt8.toNat_inj, UInt8.toNat_mod]
  exact Nat.mod_eq_of_lt (Nat.lt_of_le_of_lt (UInt8.le_iff_toNat_le.mp hle) (by decide))

/-- The keys of "setcolor 3" and Enter. -/
def setcolorKeys : List Poll :=
  [0x1F, 0x12, 0x14, 0x2E, 0x18, 0x26, 0x18, 0x13, 0x39, 0x04, 0x1C].map (⟨1, ·⟩)

theorem screen_has_background_setcolor :
    ∃ r, boot blankStack (blankMachine primaryMaster) (fun _ => 0) = some r ∧
      ∃ r' rest,
        r.turns blankStack 1 setcolorKeys = some ([executed (chars "setcolor 3")], r', rest) ∧
        ∀ k < 80 * 25, (r'.console.cell k).color >>> 4 =
          (Standing.after [executed (chars "setcolor 3")]).background := by
  obtain ⟨r, hboot⟩ := exists_boot blankStack (blankMachine primaryMaster) (fun _ => 0)
  have hcommands : takeCommands 1 (r.keys setcolorKeys) =
      some ([executed (chars "setcolor 3")], []) := by
    rw [keys, (boot_eq_some hboot).2.2]
    rfl
  obtain ⟨r', rest, hturns, -⟩ := turns_of_takeCommands blankStack (boot_ready hboot) hcommands
  have haccepts : Accepts false (executed (chars "setcolor 3")) := by decide
  have hnone : RejectedAgree [] := fun before line later hlines => absurd hlines.symm (by simp)
  have hagree : RejectedAgree ([] ++ [executed (chars "setcolor 3")]) :=
    hnone.concat fun _ hlt => absurd haccepts.2 (UInt32.not_le.mpr hlt)
  exact ⟨r, hboot, r', rest, hturns,
    screen_has_background hboot hturns hagree ⟨[], _, [], rfl, haccepts⟩⟩

end Running

/-! ### Clearing the screen -/

/-- From `t` to `t'` only functions of the disk code have printed. -/
def MainState.Calls (t t' : MainState) : Prop :=
  t'.machine.Ready ∧ ∃ calls : List PrintCall, t'.output = t.output ++ calls.map .call

/-- A change of the colours or a clear: the column stays. -/
def ScreenCall.KeepsColumn : ScreenCall → Prop
  | .call (.setColor _ _) | .clear => True
  | _ => False

/-- From `t` to `t'` the screen may have been cleared, but before anything was printed. -/
def MainState.Wipes (t t' : MainState) : Prop :=
  t'.machine.Ready ∧ ∃ body, ∃ calls : List PrintCall,
    t'.output = t.output ++ (body ++ calls.map .call) ∧ ∀ c ∈ body, c.KeepsColumn

section Calls

variable {α β : Type} {t t' t'' : MainState} {frame : MainState → LocalArray} {line : CString}

theorem MainState.Calls.trans (h : t.Calls t') (h' : t'.Calls t'') : t.Calls t'' := by
  obtain ⟨-, calls, hcalls⟩ := h
  obtain ⟨hready, calls', hcalls'⟩ := h'
  refine ⟨hready, calls ++ calls', ?_⟩
  rw [hcalls', hcalls, List.map_append, List.append_assoc]

theorem MainState.Calls.wipes (h : t.Calls t') : t.Wipes t' := by
  obtain ⟨hready, calls, hcalls⟩ := h
  exact ⟨hready, [], calls, hcalls, by simp⟩

theorem MainState.Wipes.calls (h : t.Wipes t') (h' : t'.Calls t'') : t.Wipes t'' := by
  obtain ⟨-, body, calls, houtput, hbody⟩ := h
  obtain ⟨hready, calls', houtput'⟩ := h'
  refine ⟨hready, body, calls ++ calls', ?_, hbody⟩
  rw [houtput', houtput, List.map_append, List.append_assoc, List.append_assoc]

theorem calls_exec {x : Kernel α} {f : System → α × System} (hx : Does x f)
    (ht : t.machine.Ready) : Reaches (exec x) t fun _ t' => t.Calls t' := by
  obtain ⟨s', hrun, -, hready⟩ := hx { t.machine with printed := [] } ht
  exact ⟨_, _, run_exec hrun, hready, s'.printed, rfl⟩

theorem calls_bind {x : Main α} {y : α → Main β} (hx : Reaches x t fun _ t' => t.Calls t')
    (hy : ∀ a t', t'.machine.Ready → Reaches (y a) t' fun _ t'' => t'.Calls t'') :
    Reaches (x >>= y) t fun _ t' => t.Calls t' :=
  hx.bind fun a t' h => (hy a t' h.1).mono fun _ _ h' => h.trans h'

theorem calls_return (a : α) (ht : t.machine.Ready) :
    Reaches (return a) t fun _ t' => t.Calls t' :=
  ⟨a, t, rfl, ht, [], by simp⟩

theorem calls_setReader (inDisktool : Bool) (ht : t.machine.Ready) :
    Reaches (setReader inDisktool) t fun _ t' => t.Calls t' :=
  ⟨(), _, rfl, ht, [], by simp⟩

theorem calls_nextPrompt (ht : t.machine.Ready) : Reaches nextPrompt t fun _ t' => t.Calls t' :=
  ⟨(), _, rfl, ht, _, rfl⟩

/-- A line other than `clear` and `setcolor` clears nothing. -/
theorem kernelLine_calls (ht : t.machine.Ready) (hclear : line.bytes ≠ chars "clear")
    (hset : ¬chars "setcolor " <+: line.bytes) :
    Reaches (kernelLine frame line) t fun _ t' => t.Calls t' := by
  have hclear' : ¬strcmp line.bytes (chars "clear") = 0 := fun h =>
    hclear ((strcmp_eq_zero_iff _ _ line.noNul (by decide)).mp h)
  have hset' : ¬strncmp line.bytes (chars "setcolor ") 9 = 0 := fun h =>
    hset ((strncmp_eq_zero_iff _ (chars "setcolor ") (by decide)).mp h)
  have hprint (calls : List PrintCall) : Reaches (exec (console calls)) t fun _ t' => t.Calls t' :=
    calls_exec (console_does calls) ht
  unfold kernelLine
  refine Reaches.ite (fun _ => calls_return () ht) fun _ => ?_
  refine Reaches.ite (fun _ => hprint _) fun _ => ?_
  refine Reaches.ite (fun _ => calls_bind (hprint _) fun _ _ => calls_setReader true) fun _ => ?_
  rw [if_neg hclear']
  refine Reaches.ite (fun _ => calls_exec displayAvailableDisks_does ht) fun _ => ?_
  refine Reaches.ite (fun _ => hprint _) fun _ => ?_
  refine Reaches.ite (fun _ => ⟨(), _, checkfs_run frame t, ht, _, rfl⟩) fun _ => ?_
  refine Reaches.ite (fun _ => hprint _) fun _ => ?_
  refine Reaches.ite (fun _ => calls_exec displayPartitions_does ht) fun _ => ?_
  rw [if_neg hset']
  exact hprint _

theorem kernelLine_wipes (ht : t.machine.Ready) :
    Reaches (kernelLine frame line) t fun _ t' => t.Wipes t' := by
  by_cases hclear : line.bytes = chars "clear"
  · refine ⟨(), { t with output := t.output ++ [.clear] }, ?_, ht, [.clear], [], rfl, ?_⟩
    · unfold kernelLine
      rw [hclear]
      rfl
    · exact List.forall_mem_singleton.mpr trivial
  by_cases hset : chars "setcolor " <+: line.bytes
  · obtain ⟨t', hrun, -, -, hready, houtput⟩ := setcolor_run line t
    rw [kernelLine_setcolor frame hset]
    refine ⟨(), t', hrun, hready ht, ?_⟩
    by_cases haccepted : requested line ≤ 14
    · rw [if_pos haccepted] at houtput
      refine ⟨(acceptedCalls (requested line).toUInt8).take 4, [.str "Colors updated.", .newline],
        houtput, ?_⟩
      change ∀ c ∈ [_, _, _, _], ScreenCall.KeepsColumn c
      simp only [List.forall_mem_cons]
      exact ⟨trivial, trivial, trivial, trivial, List.forall_mem_nil _⟩
    · rw [if_neg haccepted] at houtput
      exact ⟨[], [_, _], houtput, by simp⟩
  · exact (kernelLine_calls ht hclear hset).mono fun _ _ h => h.wipes

/-- After the newline behind the line that was read, a turn clears the screen before it
prints anything, or not at all. -/
theorem turn_wipes (ht : t.machine.Ready) :
    Reaches (turn frame line) t fun _ t' => ∃ body, ∃ calls : List PrintCall,
      t'.output = t.output ++ .call .newline :: (body ++ calls.map .call) ∧
        ∀ c ∈ body, c.KeepsColumn := by
  have hrest : Reaches (do
      let t ← get
      if t.inDisktool then do
        let goOn ← exec (disktoolLine (colorByte t.color) line)
        if goOn then nextPrompt
        else
          setReader false
          nextPrompt
      else do
        kernelLine frame line
        nextPrompt) (t.show [.newline]) fun _ t' => (t.show [.newline]).Wipes t' := by
    have hshown : (t.show [.newline]).machine.Ready := ht
    refine reaches_get.bind fun _ _ ⟨h₁, h₂⟩ => ?_
    rw [h₁, h₂]
    refine Reaches.ite (fun _ => ?_) fun _ => ?_
    · refine Reaches.mono ?_ fun _ _ h => MainState.Calls.wipes h
      refine calls_bind (calls_exec (disktoolLine_does _ line) hshown) fun goOn t' ht' => ?_
      refine Reaches.ite (fun _ => calls_nextPrompt ht') fun _ => ?_
      exact calls_bind (calls_setReader false ht') fun _ _ => calls_nextPrompt
    · exact (kernelLine_wipes hshown).bind fun _ t' h =>
        (calls_nextPrompt h.1).mono fun _ _ h' => h.calls h'
  refine Reaches.of_run (run_exec_console _ _) (hrest.mono fun _ t' h => ?_)
  obtain ⟨-, body, calls, houtput, hbody⟩ := h
  exact ⟨body, calls, houtput.trans (List.append_assoc _ _ _), hbody⟩

end Calls

section Clears

variable {stack : Stack} {m : Machine} {memory : Memory} {r r' : Running}
  {polls rest : List Poll} {line : CString} {lines : List CString} {n : ℕ}

theorem runAll_keepsColumn (digits : Memory) {calls : List ScreenCall}
    (hcalls : ∀ c ∈ calls, c.KeepsColumn) (s : Console) :
    (ScreenCall.runAll digits calls s).col = s.col := by
  induction calls generalizing s with
  | nil => rfl
  | cons c calls ih =>
    obtain ⟨hc, hrest⟩ := List.forall_mem_cons.mp hcalls
    rw [ScreenCall.runAll_cons, ih hrest]
    match c, hc with
    | .call (.setColor _ _), _ => rfl
    | .clear, _ => exact (Console.printClear_spec s).2.2.1

theorem printNewline_col (s : Console) : s.printNewline.col = 0 := by
  have hscreen := congrArg Terminal.col (Console.printNewline_screen s)
  rw [Terminal.newline_col] at hscreen
  exact hscreen

/-- A list with no clear behind its first part. -/
theorem prefix_of_clear {body before later : List ScreenCall} {calls : List PrintCall}
    (h : body ++ calls.map .call = before ++ .clear :: later) : before <+: body := by
  rcases List.append_eq_append_iff.mp h with ⟨shown, hbefore, hcalls⟩ | ⟨rest, hbody, -⟩
  · have hmem : ScreenCall.clear ∈ calls.map ScreenCall.call := by
      rw [hcalls]
      simp
    obtain ⟨c, -, hc⟩ := List.mem_map.mp hmem
    cases hc
  · exact ⟨rest, hbody.symm⟩

namespace Running

/-- The columns at which `print_clear` finds the cursor when these calls are made. -/
def ClearsAtColumnZero (digits : Memory) (calls : List ScreenCall) (s : Console) : Prop :=
  ∀ before later, calls = before ++ .clear :: later →
    (ScreenCall.runAll digits before s).col = 0

theorem clears_of_keepsColumn {digits : Memory} {s : Console} {body : List ScreenCall}
    (calls : List PrintCall) (hbody : ∀ c ∈ body, c.KeepsColumn) (hs : s.col = 0) :
    ClearsAtColumnZero digits (body ++ calls.map .call) s := by
  intro before later hsplit
  have hbefore := prefix_of_clear hsplit
  rw [runAll_keepsColumn digits (fun c hc => hbody c (hbefore.subset hc)), hs]

theorem clears_of_newline {digits : Memory} {body : List ScreenCall} (calls : List PrintCall)
    (hbody : ∀ c ∈ body, c.KeepsColumn) (s : Console) :
    ClearsAtColumnZero digits (.call .newline :: (body ++ calls.map .call)) s := by
  rintro (_ | ⟨first, before⟩) later hsplit
  · exact absurd (List.cons.inj hsplit).1 (by simp)
  · obtain ⟨rfl, hrest⟩ := List.cons.inj hsplit
    exact clears_of_keepsColumn calls hbody (printNewline_col s) before later hrest

/-- Booting clears the screen once, before anything is printed. -/
theorem boot_output (m : Machine) : Reaches Main.boot (.start m) fun _ t =>
    ∃ calls : List PrintCall, t.output = [.clear] ++ calls.map .call := by
  let t₁ : MainState :=
    { MainState.start m with
      machine := { m with printed := [], memory := memoryAllocatorInit m.poolBase m.memory }
      output := .clear :: banner.map .call }
  have hboot : Main.boot.run (.start m) = (do
      exec initDisktool
      setColor 0
      exec (EtyOS.console [.setColor printColorWhite (colorByte 0)])
      nextPrompt : Main Unit).run t₁ := rfl
  have hready : t₁.machine.Ready := Or.inl (poolFresh_init m.memory)
  have hcolor {t : MainState} (ht : t.machine.Ready) : Reaches (setColor 0) t fun _ t' => t.Calls t' :=
    ⟨(), _, rfl, ht, [], by simp⟩
  have hfirst : Reaches (do
      exec initDisktool
      setColor 0
      exec (EtyOS.console [.setColor printColorWhite (colorByte 0)])
      nextPrompt) t₁ fun _ t => t₁.Calls t := by
    refine calls_bind (calls_exec initDisktool_does hready) fun _ t ht => ?_
    refine calls_bind (hcolor ht) fun _ t ht => ?_
    exact calls_bind (calls_exec (console_does _) ht) fun _ _ => calls_nextPrompt
  obtain ⟨⟨⟩, t, hrun, -, calls, houtput⟩ := hfirst
  refine ⟨(), t, hboot.trans hrun, banner ++ calls, ?_⟩
  rw [houtput, List.map_append]
  rfl

/-- `print_clear`, which leaves the column alone, is only ever called with the cursor in
column 0: when the kernel boots, and in every turn on the console that `read_input` returns. -/
theorem clears_at_column_zero (h₀ : boot stack m memory = some r)
    (h : r.turns stack n polls = some (lines, r', rest)) :
    ClearsAtColumnZero stack.digits r.main.output (bootConsole memory) ∧
      ∀ later line r'' rest', r'.turn stack later = some (line, r'', rest') →
        ∃ console command new,
          r'.keyboard.readInput 256 r'.console (stack.command r'.main) later =
            some (console, command, r''.keyboard, rest') ∧
          r''.main.output = r'.main.output ++ new ∧
          r''.console = ScreenCall.runAll stack.digits new console ∧
          ClearsAtColumnZero stack.digits new console := by
  constructor
  · obtain ⟨calls, houtput⟩ := (boot_output m).result (boot_eq_some h₀).1
    rw [houtput]
    exact clears_of_keepsColumn calls (List.forall_mem_singleton.mpr trivial) rfl
  · intro later line r'' rest' hturn
    have hreached := (boot_reached h₀).append (turns_run h).2
    obtain ⟨console, command, hread, -, hexec, hconsole⟩ := turn_cases hturn
    obtain ⟨body, calls, houtput, hbody⟩ := (turn_wipes hreached.waits.ready).result hexec
    refine ⟨console, command, _, hread, houtput, ?_, clears_of_newline calls hbody _⟩
    rw [hconsole, display_eq houtput]

theorem clears_at_column_zero_blank :
    ∃ r, boot blankStack (blankMachine primaryMaster) (fun _ => 0) = some r ∧
      ClearsAtColumnZero blankStack.digits r.main.output (bootConsole fun _ => 0) ∧
      ∀ later line r'' rest', r.turn blankStack later = some (line, r'', rest') →
        ∃ console command new,
          r.keyboard.readInput 256 r.console (blankStack.command r.main) later =
            some (console, command, r''.keyboard, rest') ∧
          r''.main.output = r.main.output ++ new ∧
          r''.console = ScreenCall.runAll blankStack.digits new console ∧
          ClearsAtColumnZero blankStack.digits new console := by
  obtain ⟨r, hboot⟩ := exists_boot blankStack (blankMachine primaryMaster) (fun _ => 0)
  have hnone : r.turns blankStack 0 [] = some ([], r, []) := rfl
  exact ⟨r, hboot, clears_at_column_zero hboot hnone⟩

end Running

theorem printSetColor_screen (foreground background : UInt8) (s : Console) :
    (s.printSetColor foreground background).screen = s.screen := rfl

/-- Plain characters, with room for them in the row of the cursor. -/
theorem displays_printStr {s : Console} {blank : ScreenChar} {front : List (List ScreenChar)}
    {last : List ScreenChar} {str : List UInt8}
    (hd : Terminal.Displays numCols numRows blank s.screen front last)
    (hplain : ∀ c ∈ str, c ≠ 0 ∧ c ≠ 0x0A ∧ c ≠ 0x08) (hroom : last.length + str.length ≤ numCols) :
    Terminal.Displays numCols numRows blank (Console.printStr str s).screen front
      (last ++ str.map (⟨·, s.color⟩)) := by
  induction str generalizing s last with
  | nil => simpa [Console.printStr_nil] using hd
  | cons c str ih =>
    obtain ⟨⟨hc, hnewline, hbackspace⟩, hothers⟩ := List.forall_mem_cons.mp hplain
    rw [List.length_cons] at hroom
    have hput : (s.printChar c).screen = s.screen.write numCols ⟨c, s.color⟩ := by
      rw [Console.printChar_other s hnewline hbackspace, Terminal.put, hd.col, if_neg (by omega)]
    have hfirst : Terminal.Displays numCols numRows blank (s.printChar c).screen front
        (last ++ [⟨c, s.color⟩]) := by
      rw [hput]
      exact hd.write (by omega) _
    have hrest := ih hfirst hothers (by simp only [List.length_append, List.length_singleton]; omega)
    rw [Console.printStr_cons, if_neg hc, List.map_cons]
    rwa [Console.printChar_color, List.append_assoc] at hrest

/-- `clear` in `kernel_main`. -/
theorem turn_clear {frame : MainState → LocalArray} {t t' : MainState}
    (hkernel : t.inDisktool = false) (hline : line.bytes = chars "clear")
    (hrun : (turn frame line).run t = some ((), t')) :
    t'.output = t.output ++ .call .newline :: .clear :: (prompt t.color).map .call := by
  have hclear : Reaches (turn frame line) t fun _ t' =>
      t'.output = t.output ++ .call .newline :: .clear :: (prompt t.color).map .call := by
    refine Reaches.of_run (run_exec_console _ _) (reaches_get.bind fun _ _ ⟨h₁, h₂⟩ => ?_)
    rw [h₁, h₂]
    refine Reaches.ite (fun hdisktool => ?_) fun _ => ?_
    · exact absurd (hkernel.symm.trans hdisktool) (by simp)
    · have hbody : (kernelLine frame line).run (t.show [.newline]) =
          some ((), { t.show [.newline] with
            output := (t.show [.newline]).output ++ [.clear] }) := by
        unfold kernelLine
        rw [hline]
        rfl
      refine Reaches.of_run hbody ⟨(), _, rfl, ?_⟩
      simp [MainState.show, Machine.print, hkernel]
  exact hclear.result hrun

namespace Running

/-- When the line `clear` has been executed the screen is empty but for the prompt at the top
left, whatever had been on it. -/
theorem clear_shows_prompt (hkernel : r.main.inDisktool = false)
    (hline : line.bytes = chars "clear") (h : r.turn stack polls = some (line, r', rest)) :
    Terminal.Displays numCols numRows ⟨0x20, r.console.color⟩ r'.console.screen []
      ((chars "etyOS Kernel > ").map
        (⟨·, printColorLightGray + (colorByte r.main.color <<< 4)⟩)) := by
  obtain ⟨console, command, hread, -, hexec, hconsole⟩ := turn_cases h
  rw [hconsole, display_eq (turn_clear hkernel hline hexec)]
  set s := console.printNewline with hs
  obtain ⟨hcell, hrow, hcol, hcolor⟩ := Console.printClear_spec s
  have hkept : s.color = r.console.color := by
    rw [hs, Console.printNewline_color]
    obtain ⟨typed, e, hhead, rfl⟩ := Keyboard.exists_atHead hread
    exact hhead.color
  have hempty : Terminal.Displays numCols numRows ⟨0x20, r.console.color⟩ s.printClear.screen [] [] := by
    refine Terminal.displays_blank (by decide) (fun k hk => ?_) ?_ ?_
    · rw [Console.screen_cell, hcell k hk, Console.empty, hkept]
    · rw [Console.screen_row, hrow]
    · rw [Console.screen_col, hcol, hs, printNewline_col]
  rw [← printSetColor_screen printColorLightGray (colorByte r.main.color)] at hempty
  have hplain : ∀ c ∈ chars "etyOS Kernel > ", c ≠ 0 ∧ c ≠ 0x0A ∧ c ≠ 0x08 := fun c hc =>
    ⟨ne_of_mem_of_not_mem hc (by decide), ne_of_mem_of_not_mem hc (by decide),
      ne_of_mem_of_not_mem hc (by decide)⟩
  have hprompt := displays_printStr hempty hplain (by decide)
  rw [← printSetColor_screen printColorWhite (colorByte r.main.color)] at hprompt
  simp only [prompt, List.map_cons, List.map_nil, ScreenCall.runAll_cons, ScreenCall.run]
  exact hprompt

/-- The keys of "clear" and Enter at the first prompt. -/
theorem exists_typed_clear :
    ∃ r, boot blankStack (blankMachine primaryMaster) (fun _ => 0) = some r ∧
      takeCommand [] (r.keys ([0x2E, 0x26, 0x12, 0x1E, 0x13, 0x1C].map (⟨1, ·⟩))) =
        some (chars "clear", []) ∧
      r.main.inDisktool = false ∧
      ∃ r' rest, r.turn blankStack ([0x2E, 0x26, 0x12, 0x1E, 0x13, 0x1C].map (⟨1, ·⟩)) =
        some (executed (chars "clear"), r', rest) := by
  obtain ⟨r, hboot⟩ := exists_boot blankStack (blankMachine primaryMaster) (fun _ => 0)
  have hturn := turn_takeCommand blankStack ([0x2E, 0x26, 0x12, 0x1E, 0x13, 0x1C].map (⟨1, ·⟩))
    (boot_ready hboot)
  have hcommand : takeCommand [] (r.keys ([0x2E, 0x26, 0x12, 0x1E, 0x13, 0x1C].map (⟨1, ·⟩))) =
      some (chars "clear", []) := by
    rw [keys, (boot_eq_some hboot).2.2]
    decide
  rw [hcommand] at hturn
  obtain ⟨r', rest, hturn, -⟩ := hturn
  exact ⟨r, hboot, hcommand, (boot_reached hboot).waits.inDisktool, r', rest, hturn⟩

theorem clear_shows_prompt_typed :
    ∃ r, boot blankStack (blankMachine primaryMaster) (fun _ => 0) = some r ∧
      ∃ r' rest, r.turn blankStack ([0x2E, 0x26, 0x12, 0x1E, 0x13, 0x1C].map (⟨1, ·⟩)) =
          some (executed (chars "clear"), r', rest) ∧
        Terminal.Displays numCols numRows ⟨0x20, r.console.color⟩ r'.console.screen []
          ((chars "etyOS Kernel > ").map
            (⟨·, printColorLightGray + (colorByte r.main.color <<< 4)⟩)) := by
  obtain ⟨r, hboot, -, hkernel, r', rest, hturn⟩ := exists_typed_clear
  exact ⟨r, hboot, r', rest, hturn, clear_shows_prompt hkernel (by decide) hturn⟩

end Running

end Clears

end EtyOS
