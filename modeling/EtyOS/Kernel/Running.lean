import EtyOS.Console.TypedText
import EtyOS.Console.ScreenBounds
import EtyOS.Console.Numerals
import EtyOS.Kernel.History

/-!
# The kernel with its keyboard and its screen

`kernel_main` and `start_disktool` wait in `read_input`, which takes key presses
from the keyboard controller and echoes them; then the line is executed, and the
calls it makes go to the screen. The lines executed are a history of `kernel_main`,
so what is typed decides what becomes of the disks.
-/

namespace EtyOS

open Library Main

/-- What lies on the stack where the kernel puts its local arrays: around the array of
`check_filesystem`, in `char command[256]`, and in the digits of a number. -/
structure Stack where
  frame : MainState → LocalArray
  command : MainState → Memory
  digits : Memory

def blankStack : Stack := ⟨fun _ _ => 0, fun _ _ => 0, fun _ => 0⟩

namespace ScreenCall

/-- What a call does to the screen. -/
def run (digits : Memory) : ScreenCall → Console → Console
  | .call (.str text), s => Console.printStr (chars text) s
  | .call .newline, s => s.printNewline
  | .call (.char c), s => s.printChar c
  | .call (.int n), s => s.printInt n digits
  | .call (.dec n), s => s.printDec n digits
  | .call (.setColor foreground background), s => s.printSetColor foreground background
  | .clear, s => s.printClear

def runAll (digits : Memory) (calls : List ScreenCall) (s : Console) : Console :=
  calls.foldl (fun s c => c.run digits s) s

end ScreenCall

/-- The string in `char command[256]`. -/
def commandLine (command : Memory) : CString where
  bytes := commandString command
  noNul := fun h => by simpa using List.mem_takeWhile_imp h

/-- The kernel while it waits for a line. -/
structure Running where
  main : MainState
  console : Console
  keyboard : Keyboard

namespace Running

variable (stack : Stack)

/-- The calls made from `t` to `t'` go to the screen. -/
def display (t t' : MainState) (s : Console) : Console :=
  ScreenCall.runAll stack.digits (t'.output.drop t.output.length) s

/-- `read_input` and the execution of the line: the line, the kernel at its next prompt,
and the polls of the keyboard that are still to come. -/
def turn (r : Running) (polls : List Poll) : Option (CString × Running × List Poll) := do
  let (console, command, keyboard, rest) ←
    r.keyboard.readInput 256 r.console (stack.command r.main) polls
  let line := commandLine command
  let (_, t) ← (Main.turn stack.frame line).run r.main
  return (line, ⟨t, display stack r.main t console, keyboard⟩, rest)

/-- `n` lines, one after the other. -/
def turns : ℕ → Running → List Poll → Option (List CString × Running × List Poll)
  | 0, r, polls => some ([], r, polls)
  | n + 1, r, polls => do
    let (line, r, rest) ← r.turn stack polls
    let (lines, r, rest) ← turns n r rest
    return (line :: lines, r, rest)

/-- The console before `kernel_main`, with whatever is in memory: white on black. -/
def bootConsole (memory : Memory) : Console where
  memory := memory
  row := 0
  col := 0
  color := 0x0F

/-- The kernel at its first prompt. -/
def boot (m : Machine) (memory : Memory) : Option Running := do
  let (_, t) ← Main.boot.run (.start m)
  return ⟨t, display stack (.start m) t (bootConsole memory), ⟨false, false⟩⟩

/-- The characters of the key presses that are still to come. -/
def keys (r : Running) (polls : List Poll) : List UInt8 :=
  Keyboard.keysPressed (Keyboard.scanCodes polls) r.keyboard

end Running

/-! ### The lines that are executed -/

section Lines

theorem takeLine_of_enters {keys : List UInt8} (h : 0 < enters keys) :
    ∃ line rest, takeLine keys = some (line, rest) := by
  induction keys with
  | nil => exact absurd h (by decide)
  | cons c keys ih =>
    by_cases hc : isEnter c
    · exact ⟨[], keys, if_pos hc⟩
    · rw [enters, List.countP_cons_of_neg (by simpa using hc)] at h
      obtain ⟨line, rest, hline⟩ := ih h
      exact ⟨c :: line, rest, by rw [takeLine, if_neg hc, hline]; rfl⟩

/-- The characters of the next line, with `typed` in front: up to Enter, or until the line
has 255 characters. The rest is left for the next line; `none` waits for more. -/
def takeCommand (typed : List UInt8) : List UInt8 → Option (List UInt8 × List UInt8)
  | [] => if (edited typed).length < 255 then none else some (typed, [])
  | c :: keys =>
    if (edited typed).length < 255 then
      if isEnter c then some (typed, keys) else takeCommand (typed ++ [c]) keys
    else some (typed, c :: keys)

/-- The line that is executed: a NUL in it ends it. -/
def executed (typed : List UInt8) : CString where
  bytes := (edited typed).takeWhile (· ≠ 0)
  noNul := fun h => by simpa using List.mem_takeWhile_imp h

/-- The first `n` lines to be executed, and the characters behind them. -/
def takeCommands : ℕ → List UInt8 → Option (List CString × List UInt8)
  | 0, keys => some ([], keys)
  | n + 1, keys =>
    (takeCommand [] keys).bind fun r =>
      (takeCommands n r.2).map fun r' => (executed r.1 :: r'.1, r'.2)

/-- The loop of `read_input` takes the next line; the induction is on the characters. -/
theorem loop_takeCommand {e : LineEditor} {typed : List UInt8} (hholds : e.Holds typed)
    (hshort : e.i ≤ 255) (keys : List UInt8) :
    match takeCommand typed keys with
    | none => LineEditor.loop 256 keys e = none
    | some (typed', rest) => ∃ e', LineEditor.loop 256 keys e = some (e', rest) ∧
        e'.Holds typed' ∧ e'.i ≤ 255 := by
  induction keys generalizing e typed with
  | nil =>
    rw [takeCommand, LineEditor.loop, ← hholds.index]
    by_cases hroom : e.i < 255
    · simp [hroom]
    · simp [hroom, hholds, hshort]
  | cons c keys ih =>
    rw [takeCommand, LineEditor.loop, ← hholds.index]
    by_cases hroom : e.i < 255
    · simp only [hroom, if_true]
      by_cases hc : isEnter c
      · simp [hc, hholds, hshort]
      · have hnext := LineEditor.key_index_le c e
        simp only [hc, if_false]
        exact ih (hholds.key hroom c) (by omega)
    · simp [hroom, hholds, hshort]

/-- What `read_input` returns and leaves, for all key presses. -/
theorem readInput_takeCommand (console : Console) (buffer : Memory) (keys : List UInt8) :
    match takeCommand [] keys with
    | none => readInput 256 console buffer keys = none
    | some (typed, rest) => ∃ console' command,
        readInput 256 console buffer keys = some (console', command, rest) ∧
          commandLine command = executed typed := by
  have hloop := loop_takeCommand (LineEditor.holds_start console buffer) (Nat.zero_le _) keys
  rw [readInput]
  cases hcommand : takeCommand [] keys with
  | none =>
    rw [hcommand] at hloop
    dsimp only at hloop ⊢
    rw [hloop]
    rfl
  | some r =>
    rw [hcommand] at hloop
    obtain ⟨e', hrun, hholds, hlt⟩ := hloop
    refine ⟨e'.console, Function.update e'.buffer e'.i 0, by rw [hrun]; rfl, CString.ext ?_⟩
    exact hholds.commandString_takeWhile (hholds.index ▸ hlt)

/-- A line that never fills the buffer is taken as a whole. -/
theorem takeCommand_line {typed line : List UInt8} {enter : UInt8} (henter : isEnter enter)
    (hline : ∀ c ∈ line, ¬isEnter c) (rest : List UInt8)
    (hroom : ∀ taken, taken <+: line → (edited (typed ++ taken)).length < 255) :
    takeCommand typed (line ++ enter :: rest) = some (typed ++ line, rest) := by
  induction line generalizing typed with
  | nil =>
    have hshort := hroom [] (List.prefix_refl _)
    rw [List.append_nil] at hshort
    rw [List.nil_append, List.append_nil, takeCommand, if_pos hshort, if_pos henter]
  | cons c line ih =>
    have hshort := hroom [] List.nil_prefix
    rw [List.append_nil] at hshort
    rw [List.cons_append, takeCommand, if_pos hshort, if_neg (hline c List.mem_cons_self),
      ih (fun c' hc' => hline c' (List.mem_cons_of_mem c hc')), List.append_assoc]
    · rfl
    · intro taken htaken
      rw [List.append_assoc]
      exact hroom (c :: taken) (List.cons_prefix_cons.mpr ⟨rfl, htaken⟩)

/-- The length of the edited line changes by one character at a time. -/
theorem length_lt_of_not_fillsBuffer {line : List UInt8} (h : ¬FillsBuffer line) :
    ∀ taken, taken <+: line → (edited taken).length < 255 := by
  intro taken
  induction taken using List.reverseRecOn with
  | nil => exact fun _ => by decide
  | append_singleton taken c ih =>
    intro htaken
    have hbefore := ih ((List.prefix_append _ _).trans htaken)
    have hstep := length_edited_concat_le taken c
    have hne : (edited (taken ++ [c])).length ≠ 255 := fun hfull => h ⟨_, htaken, hfull⟩
    omega

theorem takeCommands_lines {n : ℕ} {keys rest : List UInt8} {lines : List (List UInt8)}
    (hlines : takeLines n keys = some (lines, rest)) (hshort : ∀ line ∈ lines, ¬FillsBuffer line) :
    takeCommands n keys = some (lines.map executed, rest) := by
  induction n generalizing keys lines with
  | zero =>
    cases hlines
    rfl
  | succ n ih =>
    obtain ⟨⟨line, rest₁⟩, hline, htail⟩ := Option.bind_eq_some_iff.mp hlines
    obtain ⟨⟨lines', rest₂⟩, hlines', heq⟩ := Option.map_eq_some_iff.mp htail
    cases heq
    obtain ⟨hfirst, hothers⟩ := List.forall_mem_cons.mp hshort
    obtain ⟨enter, henter, rfl, hchars⟩ := takeLine_eq_some hline
    have hcommand : takeCommand [] (line ++ enter :: rest₁) = some (line, rest₁) :=
      takeCommand_line henter hchars rest₁ (length_lt_of_not_fillsBuffer hfirst)
    rw [takeCommands, hcommand]
    simp only [Option.bind_some, ih hlines' hothers, Option.map_some, List.map_cons]

end Lines

namespace Running

variable {stack : Stack} {m : Machine} {memory : Memory} {r r' r'' : Running}
  {polls rest rest' : List Poll} {line : CString} {lines lines' : List CString} {n : ℕ}

/-- A turn is a call of `read_input` and a turn of `kernel_main`. -/
theorem turn_cases (h : r.turn stack polls = some (line, r', rest)) :
    ∃ console command,
      r.keyboard.readInput 256 r.console (stack.command r.main) polls =
        some (console, command, r'.keyboard, rest) ∧
      line = commandLine command ∧
      (Main.turn stack.frame line).run r.main = some ((), r'.main) ∧
      r'.console = display stack r.main r'.main console := by
  obtain ⟨⟨console, command, keyboard, rest₁⟩, hread, hrest⟩ := Option.bind_eq_some_iff.mp h
  obtain ⟨⟨⟨⟩, t⟩, hturn, hresult⟩ := Option.bind_eq_some_iff.mp hrest
  cases hresult
  exact ⟨console, command, hread, rfl, hturn, rfl⟩

theorem turn_of_readInput {console : Console} {command : Memory} {keyboard : Keyboard} {t : MainState}
    (hread : r.keyboard.readInput 256 r.console (stack.command r.main) polls =
      some (console, command, keyboard, rest))
    (hturn : (Main.turn stack.frame (commandLine command)).run r.main = some ((), t)) :
    r.turn stack polls =
      some (commandLine command, ⟨t, display stack r.main t console, keyboard⟩, rest) := by
  rw [turn, hread]
  simp only [Option.bind_eq_bind, Option.bind_some, hturn]
  rfl

/-- The characters that a call of `read_input` finds and leaves. -/
theorem readInput_keys {console : Console} {command : Memory} {keyboard : Keyboard}
    (hread : r.keyboard.readInput 256 r.console (stack.command r.main) polls =
      some (console, command, keyboard, rest)) :
    EtyOS.readInput 256 r.console (stack.command r.main) (r.keys polls) =
      some (console, command, Keyboard.keysPressed (Keyboard.scanCodes rest) keyboard) := by
  rw [keys, ← Keyboard.readInput_eq, hread]
  rfl

/-- The loop of a call of `read_input`, and the characters that it takes. -/
theorem readInput_loop {console : Console} {command : Memory} {keyboard : Keyboard}
    (hread : r.keyboard.readInput 256 r.console (stack.command r.main) polls =
      some (console, command, keyboard, rest)) :
    ∃ typed later e, takeCommand [] (r.keys polls) = some (typed, later) ∧
      LineEditor.loop 256 (r.keys polls) (.start 256 r.console (stack.command r.main)) =
        some (e, later) ∧ e.Holds typed ∧ e.i ≤ 255 ∧ e.console = console := by
  obtain ⟨⟨e, later⟩, hloop, heq⟩ := Option.map_eq_some_iff.mp (readInput_keys hread)
  have hcommand := loop_takeCommand (LineEditor.holds_start r.console (stack.command r.main))
    (Nat.zero_le _) (r.keys polls)
  cases htyped : takeCommand [] (r.keys polls) with
  | none =>
    rw [htyped] at hcommand
    cases hcommand.symm.trans hloop
  | some p =>
    rw [htyped] at hcommand
    obtain ⟨e', hloop', hholds, hshort⟩ := hcommand
    obtain ⟨rfl, -⟩ := Prod.mk.inj (Option.some.inj (hloop'.symm.trans hloop))
    exact ⟨p.1, p.2, e', rfl, hloop', hholds, hshort, congrArg Prod.fst heq⟩

/-- While Enter is among the key presses to come, the next line is executed. -/
theorem turn_of_enter (stack : Stack) (hready : r.main.machine.Ready) (hkeys : 0 < enters (r.keys polls)) :
    ∃ line r' rest, r.turn stack polls = some (line, r', rest) ∧ r'.main.machine.Ready ∧
      enters (r.keys polls) ≤ enters (r'.keys rest) + 1 := by
  obtain ⟨typed, later, hline⟩ := takeLine_of_enters hkeys
  obtain ⟨console, command, keyboard, rest, hread, -⟩ :=
    Keyboard.readInput_takenPart r.console (stack.command r.main) polls r.keyboard hline
  obtain ⟨⟨⟩, t, hturn, hadds, -⟩ := turn_reaches stack.frame (commandLine command) hready
  exact ⟨_, _, _, turn_of_readInput hread hturn, hadds.ready,
    readInput_enters (readInput_keys hread)⟩

/-- With `n` Enters among the key presses to come, `n` lines are executed. -/
theorem turns_of_enters (stack : Stack) (hready : r.main.machine.Ready) (hkeys : n ≤ enters (r.keys polls)) :
    ∃ lines r' rest, r.turns stack n polls = some (lines, r', rest) := by
  induction n generalizing r polls with
  | zero => exact ⟨[], r, polls, rfl⟩
  | succ n ih =>
    obtain ⟨line, r₁, rest₁, hturn, hready₁, henters⟩ :=
      turn_of_enter stack hready (Nat.lt_of_lt_of_le n.succ_pos hkeys)
    obtain ⟨lines, r', rest, hturns⟩ := ih hready₁ (by omega : n ≤ enters (r₁.keys rest₁))
    refine ⟨line :: lines, r', rest, ?_⟩
    rw [turns, hturn]
    simp only [Option.bind_eq_bind, Option.bind_some, hturns]
    rfl

theorem boot_eq_some (h : boot stack m memory = some r) :
    Main.boot.run (.start m) = some ((), r.main) ∧
      r.console = display stack (.start m) r.main (bootConsole memory) ∧
      r.keyboard = ⟨false, false⟩ := by
  obtain ⟨⟨⟨⟩, t⟩, hboot, hresult⟩ := Option.bind_eq_some_iff.mp h
  cases hresult
  exact ⟨hboot, rfl, rfl⟩

theorem exists_boot (stack : Stack) (m : Machine) (memory : Memory) :
    ∃ r, boot stack m memory = some r := by
  obtain ⟨⟨⟩, t, hboot, -⟩ := boot_reaches m
  exact ⟨_, by rw [boot, hboot]; rfl⟩

/-- A run of turns goes through the states of `kernel_main` that its lines lead to. -/
theorem turns_run (h : r.turns stack n polls = some (lines, r', rest)) :
    lines.length = n ∧ Run (Main.turn stack.frame) (fun _ _ => True) r.main lines r'.main := by
  induction n generalizing r polls lines with
  | zero =>
    cases h
    exact ⟨rfl, .nil⟩
  | succ n ih =>
    obtain ⟨⟨line, r₁, rest₁⟩, hturn, htail⟩ := Option.bind_eq_some_iff.mp h
    obtain ⟨⟨lines', r₂, rest₂⟩, hturns, hresult⟩ := Option.bind_eq_some_iff.mp htail
    cases hresult
    obtain ⟨hlength, hrun⟩ := ih hturns
    obtain ⟨-, -, -, -, hexec, -⟩ := turn_cases hturn
    refine ⟨by rw [List.length_cons, hlength], ?_⟩
    exact (Run.nil.snoc trivial hexec).append hrun

/-- A turn in terms of the characters. -/
theorem turn_takeCommand (stack : Stack) (polls : List Poll) (hready : r.main.machine.Ready) :
    match takeCommand [] (r.keys polls) with
    | none => r.turn stack polls = none
    | some (typed, later) => ∃ r' rest,
        r.turn stack polls = some (executed typed, r', rest) ∧ r'.keys rest = later := by
  have hkeys := readInput_takeCommand r.console (stack.command r.main) (r.keys polls)
  have hread := Keyboard.readInput_eq 256 r.console (stack.command r.main) polls r.keyboard
  rw [← keys] at hread
  cases hcommand : takeCommand [] (r.keys polls) with
  | none =>
    rw [hcommand] at hkeys
    dsimp only at hkeys ⊢
    rw [hkeys, Option.map_eq_none_iff] at hread
    rw [turn, hread]
    rfl
  | some p =>
    rw [hcommand] at hkeys
    obtain ⟨console, command, hrun, hline⟩ := hkeys
    rw [hrun] at hread
    obtain ⟨⟨console', command', keyboard, rest⟩, hpolls, heq⟩ := Option.map_eq_some_iff.mp hread
    obtain ⟨rfl, rfl, hlater⟩ : console' = console ∧ command' = command ∧
        Keyboard.keysPressed (Keyboard.scanCodes rest) keyboard = p.2 := by simpa using heq
    obtain ⟨⟨⟩, t, hturn, -⟩ := turn_reaches stack.frame (commandLine command') hready
    dsimp only
    rw [← hline]
    exact ⟨_, _, turn_of_readInput hpolls hturn, hlater⟩

theorem turn_ready (hready : r.main.machine.Ready) (h : r.turn stack polls = some (line, r', rest)) :
    r'.main.machine.Ready := by
  obtain ⟨-, -, -, -, hexec, -⟩ := turn_cases h
  exact (turn_view hready hexec).2

theorem turns_takeCommands (stack : Stack) (n : ℕ) (polls : List Poll) (hready : r.main.machine.Ready) :
    match takeCommands n (r.keys polls) with
    | none => r.turns stack n polls = none
    | some (lines, later) => ∃ r' rest,
        r.turns stack n polls = some (lines, r', rest) ∧ r'.keys rest = later := by
  induction n generalizing r polls with
  | zero => exact ⟨r, polls, rfl, rfl⟩
  | succ n ih =>
    have hfirst := turn_takeCommand stack polls hready
    rw [takeCommands, turns]
    cases hcommand : takeCommand [] (r.keys polls) with
    | none =>
      rw [hcommand] at hfirst
      dsimp only [Option.bind_none] at hfirst ⊢
      rw [hfirst]
      rfl
    | some p =>
      rw [hcommand] at hfirst
      obtain ⟨r₁, rest₁, hturn, hlater⟩ := hfirst
      have hothers := ih rest₁ (turn_ready hready hturn)
      rw [hlater] at hothers
      rw [hturn, Option.bind_some]
      simp only [Option.bind_eq_bind, Option.bind_some]
      cases hcommands : takeCommands n p.2 with
      | none =>
        rw [hcommands] at hothers
        dsimp only [Option.map_none] at hothers ⊢
        rw [hothers]
        rfl
      | some q =>
        rw [hcommands] at hothers
        obtain ⟨r', rest, hturns, hrest⟩ := hothers
        dsimp only [Option.map_some]
        rw [hturns]
        exact ⟨r', rest, rfl, hrest⟩

theorem turns_of_takeCommands (stack : Stack) {later : List UInt8} (hready : r.main.machine.Ready)
    (h : takeCommands n (r.keys polls) = some (lines, later)) :
    ∃ r' rest, r.turns stack n polls = some (lines, r', rest) ∧ r'.keys rest = later := by
  have hturns := turns_takeCommands stack n polls hready
  rw [h] at hturns
  exact hturns

theorem boot_ready (h : boot stack m memory = some r) : r.main.machine.Ready :=
  ((boot_reaches m).result (boot_eq_some h).1).1

theorem boot_reached (h : boot stack m memory = some r) : Reached stack.frame m [] r.main :=
  ⟨r.main, (boot_eq_some h).1, .nil⟩

/-- The kernel boots, and from then on the key presses decide everything about the disks:
the lines that they make are executed in their order, no other line is, and the disks,
the table of disks and the reader of the next line are what these lines lead to. Where
the key presses make fewer lines, the kernel waits for more. -/
theorem kernel_executes_keys (stack : Stack) (m : Machine) (memory : Memory) :
    ∃ r, boot stack m memory = some r ∧ ∀ n polls,
      match takeCommands n (r.keys polls) with
      | none => r.turns stack n polls = none
      | some (lines, later) => ∃ r' rest,
          r.turns stack n polls = some (lines, r', rest) ∧ r'.keys rest = later ∧
            Reached stack.frame m lines r'.main ∧ r'.main.view = MainView.after m lines := by
  obtain ⟨r, hboot⟩ := exists_boot stack m memory
  refine ⟨r, hboot, fun n polls => ?_⟩
  have hturns := turns_takeCommands stack n polls (boot_ready hboot)
  cases hcommands : takeCommands n (r.keys polls) with
  | none =>
    rw [hcommands] at hturns
    exact hturns
  | some p =>
    rw [hcommands] at hturns
    obtain ⟨r', rest, hrun, hrest⟩ := hturns
    have hreached := (boot_reached hboot).append (turns_run hrun).2
    rw [List.nil_append] at hreached
    exact ⟨r', rest, hrun, hrest, hreached, hreached.view⟩

/-- The first `n` lines typed, when none of them fills the buffer, are the lines executed,
after their backspaces and up to a NUL, and they alone have acted on the disks. -/
theorem typed_lines_executed (hboot : boot stack m memory = some r) {typed : List (List UInt8)}
    {later : List UInt8} (hlines : takeLines n (r.keys polls) = some (typed, later))
    (hshort : ∀ line ∈ typed, ¬FillsBuffer line) :
    ∃ r' rest, r.turns stack n polls = some (typed.map executed, r', rest) ∧
      r'.keys rest = later ∧ r'.main.view = MainView.after m (typed.map executed) := by
  obtain ⟨r', rest, hrun, hrest⟩ :=
    turns_of_takeCommands stack (boot_ready hboot) (takeCommands_lines hlines hshort)
  have hreached := (boot_reached hboot).append (turns_run hrun).2
  rw [List.nil_append] at hreached
  exact ⟨r', rest, hrun, hrest, hreached.view⟩

/-- The keys of "about" with an "x" that a backspace takes back, and Enter. -/
theorem typed_lines_executed_about :
    ∃ r, boot blankStack (blankMachine primaryMaster) (fun _ => 0) = some r ∧
      ∃ r' rest, r.turns blankStack 1
          [⟨1, 0x2D⟩, ⟨1, 0x0E⟩, ⟨1, 0x1E⟩, ⟨1, 0x30⟩, ⟨1, 0x18⟩, ⟨1, 0x16⟩, ⟨1, 0x14⟩, ⟨1, 0x1C⟩] =
          some ([chars "x\x08about"].map executed, r', rest) ∧
        r'.keys rest = [] ∧
        r'.main.view = MainView.after (blankMachine primaryMaster)
          ([chars "x\x08about"].map executed) := by
  obtain ⟨r, hboot⟩ := exists_boot blankStack (blankMachine primaryMaster) (fun _ => 0)
  have hlines : takeLines 1 (r.keys [⟨1, 0x2D⟩, ⟨1, 0x0E⟩, ⟨1, 0x1E⟩, ⟨1, 0x30⟩, ⟨1, 0x18⟩,
      ⟨1, 0x16⟩, ⟨1, 0x14⟩, ⟨1, 0x1C⟩]) = some ([chars "x\x08about"], []) := by
    rw [keys, (boot_eq_some hboot).2.2]
    decide
  exact ⟨r, hboot, typed_lines_executed hboot hlines (by decide)⟩

/-- Nothing that is typed can stop the kernel: for every `n` Enters among the key presses
it executes `n` lines, and stands at a prompt of a history of `n` lines. -/
theorem kernel_serves (stack : Stack) (m : Machine) (memory : Memory) :
    ∃ r, boot stack m memory = some r ∧ ∀ n polls, n ≤ enters (r.keys polls) →
      ∃ lines r' rest, r.turns stack n polls = some (lines, r', rest) ∧ lines.length = n ∧
        Reached stack.frame m lines r'.main := by
  obtain ⟨r, hboot⟩ := exists_boot stack m memory
  refine ⟨r, hboot, fun n polls hkeys => ?_⟩
  obtain ⟨lines, r', rest, hturns⟩ := turns_of_enters stack (boot_ready hboot) hkeys
  obtain ⟨hlength, hrun⟩ := turns_run hturns
  have hreached := (boot_reached hboot).append hrun
  rw [List.nil_append] at hreached
  exact ⟨lines, r', rest, hturns, hlength, hreached⟩

end Running

end EtyOS
