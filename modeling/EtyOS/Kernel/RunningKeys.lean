import EtyOS.Kernel.Running

/-!
# The kernel without its keyboard controller

The same kernel on the characters of the keys pressed: no polls, no scan codes, no
modifiers. The kernel that polls the ports does what this one does. So it does not matter
when the keys are pressed, how often the controller is found empty, or which key codes
without a character lie in between.
-/

namespace EtyOS

open Library Main

namespace Running

variable (stack : Stack)

/-- `read_input` on characters, and the execution of the line. -/
def typedTurn (t : MainState) (s : Console) (keys : List UInt8) :
    Option (CString × MainState × Console × List UInt8) := do
  let (s, command, later) ← EtyOS.readInput 256 s (stack.command t) keys
  let line := commandLine command
  let (_, t') ← (Main.turn stack.frame line).run t
  return (line, t', display stack t t' s, later)

/-- `n` lines, one after the other. -/
def typedTurns : ℕ → MainState → Console → List UInt8 →
    Option (List CString × MainState × Console × List UInt8)
  | 0, t, s, keys => some ([], t, s, keys)
  | n + 1, t, s, keys => do
    let (line, t, s, later) ← typedTurn stack t s keys
    let (lines, t, s, later) ← typedTurns n t s later
    return (line :: lines, t, s, later)

/-- The lines, the kernel, its screen and the characters to come; not the controller. -/
def seen {α : Type} (result : α × Running × List Poll) : α × MainState × Console × List UInt8 :=
  (result.1, result.2.1.main, result.2.1.console, result.2.1.keys result.2.2)

theorem turn_seen (r : Running) (polls : List Poll) :
    (r.turn stack polls).map seen = typedTurn stack r.main r.console (r.keys polls) := by
  rw [turn, typedTurn, keys, ← Keyboard.readInput_eq]
  cases r.keyboard.readInput 256 r.console (stack.command r.main) polls with
  | none => rfl
  | some result =>
    obtain ⟨s, command, keyboard, rest⟩ := result
    simp only [Option.bind_eq_bind, Option.bind_some, Option.map_some]
    cases (Main.turn stack.frame (commandLine command)).run r.main with
    | none => rfl
    | some state => rfl

/-- The polling kernel refines the one on characters, over any number of lines. -/
theorem turns_seen (n : ℕ) (r : Running) (polls : List Poll) :
    (r.turns stack n polls).map seen = typedTurns stack n r.main r.console (r.keys polls) := by
  induction n generalizing r polls with
  | zero => rfl
  | succ n ih =>
    rw [turns, typedTurns, ← turn_seen]
    cases r.turn stack polls with
    | none => rfl
    | some result =>
      obtain ⟨line, r₁, rest⟩ := result
      have htail := ih r₁ rest
      simp only [Option.bind_eq_bind, Option.bind_some, Option.map_some, seen]
      rw [← htail]
      cases r₁.turns stack n rest with
      | none => rfl
      | some results => rfl

/-- Two polling kernels at the same prompt, with whatever polls and modifiers, for which the
keys pressed have the same characters: both wait, or both execute the same lines and come to
the same state of the kernel and the disks, the same screen and the same characters to come. -/
theorem same_keys_same_run (n : ℕ) {r r' : Running} {polls polls' : List Poll}
    (hmain : r.main = r'.main) (hconsole : r.console = r'.console)
    (hkeys : r.keys polls = r'.keys polls') :
    (r.turns stack n polls).map seen = (r'.turns stack n polls').map seen := by
  rw [turns_seen, turns_seen, hmain, hconsole, hkeys]

/-- "ls" and Enter: at once, and with polls that find nothing, a released key and Shift pressed
and released again in between. -/
theorem same_keys_same_run_idle :
    ∃ r, boot blankStack (blankMachine primaryMaster) (fun _ => 0) = some r ∧
      (r.turns blankStack 1 ([0x26, 0x1F, 0x1C].map (⟨1, ·⟩))).map seen =
        (r.turns blankStack 1 [⟨0, 0x26⟩, ⟨1, 0x26⟩, ⟨0, 0⟩, ⟨1, 0xA6⟩, ⟨1, 0x2A⟩, ⟨1, 0xAA⟩,
          ⟨1, 0x1F⟩, ⟨0, 0x1F⟩, ⟨1, 0x1C⟩]).map seen := by
  obtain ⟨r, hboot⟩ := exists_boot blankStack (blankMachine primaryMaster) (fun _ => 0)
  refine ⟨r, hboot, same_keys_same_run blankStack 1 rfl rfl ?_⟩
  rw [keys, keys, (boot_eq_some hboot).2.2]
  decide

end Running

end EtyOS
