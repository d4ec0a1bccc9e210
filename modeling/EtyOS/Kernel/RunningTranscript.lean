import EtyOS.Console.Transcript
import EtyOS.Kernel.RunningScreen

/-!
# What the screen of the running kernel shows

Since the last clear the kernel has printed, and the lines typed in between were echoed:
this is one text, and at every prompt the screen shows its end.
-/

namespace EtyOS

open Library Main

/-- The characters that a call prints; a string ends at a NUL. -/
def PrintCall.text : PrintCall → List UInt8
  | .str text => (chars text).takeWhile (· ≠ 0)
  | .newline => [0x0A]
  | .char c => [c]
  | .int n => numeral 10 n.toNat
  | .dec n => numeral 10 n.toNat
  | .setColor _ _ => []

/-- The text on the screen after one more call. -/
def ScreenCall.shown (text : List UInt8) : ScreenCall → List UInt8
  | .call c => text ++ c.text
  | .clear => []

namespace Running

/-- The text on the screen after `n` lines that these polls make: what is printed goes behind
it, and so does every line as it stands when Enter is pressed. -/
def transcript (stack : Stack) : ℕ → Running → List Poll → List UInt8 → List UInt8
  | 0, _, _, text => text
  | n + 1, r, polls, text =>
    match takeCommand [] (r.keys polls), r.turn stack polls with
    | some (typed, _), some (_, r', rest) =>
      transcript stack n r' rest
        ((r'.main.output.drop r.main.output.length).foldl ScreenCall.shown (text ++ edited typed))
    | _, _ => text

section Shows

variable {stack : Stack} {m : Machine} {memory : Memory} {r r' : Running} {s : Console}
  {polls rest : List Poll} {line : CString} {lines : List CString} {n : ℕ} {text : List UInt8}

/-- The screen shows the text, unless backspaces were printed with it. -/
def ShowsPlain (s : Console) (text : List UInt8) : Prop := 0x08 ∉ text → s.ShowsText text

theorem showsPlain_append {s' : Console} {more : List UInt8} (h : ShowsPlain s text)
    (hstep : 0x08 ∉ more → s.ShowsText text → s'.ShowsText (text ++ more)) :
    ShowsPlain s' (text ++ more) := fun hplain =>
  hstep (fun hmore => hplain (List.mem_append_right text hmore))
    (h fun htext => hplain (List.mem_append_left more htext))

theorem showsPlain_call (h : ShowsPlain s text) (digits : Memory) (c : PrintCall) :
    ShowsPlain ((ScreenCall.call c).run digits s) (text ++ c.text) := by
  refine showsPlain_append h fun hplain hshows => ?_
  cases c with
  | str str =>
    rw [ScreenCall.run, Console.printStr_eq_emit]
    exact hshows.emit hplain
  | newline => exact hshows.printNewline
  | char c => exact hshows.printChar fun hc => hplain (by simp [PrintCall.text, hc])
  | int n =>
    rw [ScreenCall.run, Console.printInt_eq_emit]
    exact hshows.emit hplain
  | dec n =>
    rw [ScreenCall.run, Console.printDec_eq_emit]
    exact hshows.emit hplain
  | setColor foreground background =>
    rw [PrintCall.text, List.append_nil]
    exact hshows

/-- Calls that find the cursor in column 0 whenever they clear the screen. -/
theorem showsPlain_runAll {digits : Memory} {calls : List ScreenCall}
    (hclears : ClearsAtColumnZero digits calls s) (h : ShowsPlain s text) :
    ShowsPlain (ScreenCall.runAll digits calls s) (calls.foldl ScreenCall.shown text) := by
  induction calls generalizing s text with
  | nil => exact h
  | cons c calls ih =>
    have hrest : ClearsAtColumnZero digits calls (c.run digits s) := fun before later hsplit =>
      hclears (c :: before) later (by rw [hsplit, List.cons_append])
    refine ih hrest ?_
    cases c with
    | call c => exact showsPlain_call h digits c
    | clear => exact fun _ => Console.ShowsText.printClear (hclears [] calls rfl)

/-- `read_input` echoes the line. -/
theorem showsPlain_readInput {console : Console} {command : Memory} {keyboard : Keyboard}
    (h : ShowsPlain r.console text)
    (hread : r.keyboard.readInput 256 r.console (stack.command r.main) polls =
      some (console, command, keyboard, rest)) :
    ∃ typed later, takeCommand [] (r.keys polls) = some (typed, later) ∧
      ShowsPlain console (text ++ edited typed) := by
  obtain ⟨typed, later, e, htyped, hloop, hholds, hshort, rfl⟩ := readInput_loop hread
  obtain ⟨keys, hhead, -⟩ := LineEditor.loop_atHead hloop
  have hedited : edited keys = edited typed := by
    rw [hholds.eq_range hshort, (hhead.holds (LineEditor.holds_start _ _)).eq_range hshort]
  refine ⟨typed, later, htyped, showsPlain_append h fun _ hshows => ?_⟩
  rw [← hedited]
  exact LineEditor.shows_typed hshows hhead

theorem showsPlain_turn (hready : r.main.machine.Ready) (h : ShowsPlain r.console text)
    (hturn : r.turn stack polls = some (line, r', rest)) :
    ∃ typed later, takeCommand [] (r.keys polls) = some (typed, later) ∧
      ShowsPlain r'.console ((r'.main.output.drop r.main.output.length).foldl
        ScreenCall.shown (text ++ edited typed)) := by
  obtain ⟨console, command, hread, -, hexec, hconsole⟩ := turn_cases hturn
  obtain ⟨typed, later, htyped, hechoed⟩ := showsPlain_readInput h hread
  obtain ⟨body, calls, houtput, hbody⟩ := (turn_wipes hready).result hexec
  refine ⟨typed, later, htyped, ?_⟩
  rw [hconsole, display_eq houtput, houtput, List.drop_left]
  exact showsPlain_runAll (clears_of_newline calls hbody console) hechoed

theorem showsPlain_turns (hready : r.main.machine.Ready) (h : ShowsPlain r.console text)
    (hturns : r.turns stack n polls = some (lines, r', rest)) :
    ShowsPlain r'.console (transcript stack n r polls text) := by
  induction n generalizing r polls lines text with
  | zero =>
    cases hturns
    exact h
  | succ n ih =>
    obtain ⟨⟨line, r₁, rest₁⟩, hfirst, htail⟩ := Option.bind_eq_some_iff.mp hturns
    obtain ⟨⟨lines', r₂, rest₂⟩, hothers, hresult⟩ := Option.bind_eq_some_iff.mp htail
    cases hresult
    obtain ⟨typed, later, htyped, hshown⟩ := showsPlain_turn hready h hfirst
    have hall := ih (turn_ready hready hfirst) hshown hothers
    rw [transcript, htyped, hfirst]
    exact hall

/-- Booting clears the screen before it prints anything. -/
theorem showsPlain_boot (h : boot stack m memory = some r) :
    ShowsPlain r.console (r.main.output.foldl ScreenCall.shown []) := by
  obtain ⟨hrun, hconsole, -⟩ := boot_eq_some h
  obtain ⟨calls, houtput⟩ := (boot_output m).result hrun
  have hempty : ShowsPlain (bootConsole memory).printClear [] := fun _ =>
    Console.ShowsText.printClear rfl
  have hdisplay : r.console =
      ScreenCall.runAll stack.digits (calls.map .call) (bootConsole memory).printClear := by
    have hall : r.main.output = (MainState.start m).output ++ r.main.output := rfl
    rw [hconsole, display_eq hall, houtput]
    rfl
  have hclears : ClearsAtColumnZero stack.digits ([] ++ calls.map .call)
      (bootConsole memory).printClear := by
    refine clears_of_keepsColumn calls (by simp) ?_
    exact (Console.printClear_spec _).2.2.1
  rw [hdisplay, houtput]
  exact showsPlain_runAll hclears hempty

/-- At every prompt the screen shows the end of what has been printed and typed since it was
cleared last, character by character, in rows of 80 with the cursor behind it: what was taken
back with backspaces is gone, also where it had gone on in the next row or had scrolled the
screen. Only what the kernel prints must hold no backspaces; the name of a drive could. -/
theorem screen_shows_transcript (h₀ : boot stack m memory = some r)
    (h : r.turns stack n polls = some (lines, r', rest))
    (hplain : 0x08 ∉ transcript stack n r polls (r.main.output.foldl ScreenCall.shown [])) :
    r'.console.ShowsText
      (transcript stack n r polls (r.main.output.foldl ScreenCall.shown [])) :=
  showsPlain_turns (boot_ready h₀) (showsPlain_boot h₀) h hplain

/-- The keys of "clear" and Enter: the prompt is all that is left. -/
theorem screen_shows_transcript_cleared :
    ∃ r, boot blankStack (blankMachine primaryMaster) (fun _ => 0) = some r ∧
      ∃ r' rest, r.turns blankStack 1 ([0x2E, 0x26, 0x12, 0x1E, 0x13, 0x1C].map (⟨1, ·⟩)) =
          some ([executed (chars "clear")], r', rest) ∧
        0x08 ∉ chars "etyOS Kernel > " ∧ r'.console.ShowsText (chars "etyOS Kernel > ") := by
  obtain ⟨r, hboot, hcommand, hkernel, r', rest, hturn⟩ := exists_typed_clear
  set polls : List Poll := [0x2E, 0x26, 0x12, 0x1E, 0x13, 0x1C].map (⟨1, ·⟩)
  have hturns : r.turns blankStack 1 polls = some ([executed (chars "clear")], r', rest) := by
    rw [turns, hturn]
    rfl
  obtain ⟨-, -, -, -, hexec, -⟩ := turn_cases hturn
  have houtput := turn_clear hkernel (by decide) hexec
  have htext : transcript blankStack 1 r polls (r.main.output.foldl ScreenCall.shown []) =
      chars "etyOS Kernel > " := by
    rw [transcript, hcommand, hturn]
    simp only [transcript]
    rw [houtput, List.drop_left]
    rfl
  have hplain : 0x08 ∉ chars "etyOS Kernel > " := by decide
  refine ⟨r, hboot, r', rest, hturns, hplain, ?_⟩
  rw [← htext] at hplain ⊢
  exact screen_shows_transcript hboot hturns hplain

end Shows

end Running

end EtyOS
