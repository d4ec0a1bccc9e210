import EtyOS.Console.CString
import EtyOS.Disktool.Commands

/-!
# The shell of `disktool_cmd.c`

One turn of the loop of `start_disktool` compares the line with the commands in
a fixed order. `CString.command` is the command that a line stands for; a turn
has the effect of this command on the disks and the table, and a session has
the effect of its lines up to `exit`.
-/

namespace EtyOS

open Library

section Model

def printColorLightGray : UInt8 := 7
def printColorYellow : UInt8 := 14
def printColorWhite : UInt8 := 15

/-- FAT32 unless the text is `ext4`. -/
def parseFsType (fsStr : List UInt8) : FileSystemType :=
  if strcmp fsStr (chars "ext4") = 0 then .ext4 else .fat32

def helpCalls (color : UInt8) : List PrintCall :=
  [.str "etyOS Kernel Disk tool commands:", .newline,
    .str " - listdisks: Show all available disks", .newline,
    .str " - selectdisk <number>: Select a disk to work with", .newline,
    .str " - newpart <size_mb> [fat32|ext4]: Create a new partition with size in MB", .newline,
    .str " - delpart <number>: Delete a partition", .newline,
    .str " - partinfo: Show partition information and filesystem types", .newline,
    .str " - format [fat32|ext4]: Format selected disk (defaults to ext4).", .newline,
    .setColor printColorLightGray color,
    .str "Warning: remove all partitions from disk before formatting it",
    .setColor printColorWhite color, .newline,
    .str " - update: Update disks information", .newline,
    .str " - exit: Exit from disktool", .newline]

/-- The text of the size and the file system of `newpart`: a space in the text
is replaced by a NUL, and what follows it names the file system. -/
def splitSize (sizeStr : List UInt8) : List UInt8 × FileSystemType :=
  match strchr sizeStr 32 with
  | none => (sizeStr, .fat32)
  | some fsStr => (sizeStr.take (sizeStr.length - fsStr.length), parseFsType fsStr.tail)

/-- The body of the loop for one line; `exit` ends the loop. -/
def disktoolLine (color : UInt8) (line : CString) : Kernel Bool := do
  let command := line.bytes
  if command = [] then return true
  else if strcmp command (chars "help") = 0 then
    console (helpCalls color)
    return true
  else if strcmp command (chars "listdisks") = 0 then
    listDisks
    return true
  else if strcmp command (chars "update") = 0 then
    initDisktool
    return true
  else if strcmp command (chars "format") = 0 then
    let _ ← formatDisk .ext4
    return true
  else if strncmp command (chars "format ") 7 = 0 then
    let _ ← formatDisk (parseFsType (command.drop 7))
    return true
  else if strncmp command (chars "selectdisk ") 11 = 0 then
    let rc ← selectDisk (cInt (strtoul (command.drop 11) 10).1)
    console (if rc = 0 then [.str "Disk selected successfully.", .newline] else [])
    return true
  else if strncmp command (chars "newpart ") 8 = 0 then
    let (sizeStr, fsType) := splitSize (command.drop 8)
    let rc ← createPartitionMb (strtoul sizeStr 10).1 fsType
    console (if rc = 0 then [.str "Partition created successfully.", .newline] else [])
    return true
  else if strncmp command (chars "delpart ") 8 = 0 then
    let _ ← deletePartition (cInt (strtoul (command.drop 8) 10).1)
    return true
  else if strcmp command (chars "partinfo") = 0 then
    displayPartitionInfo
    return true
  else if strcmp command (chars "exit") = 0 then return false
  else
    console [.str "Unknown command. Type 'help' for available commands.", .newline]
    return true

/-- The loop over the lines that are typed. -/
def disktoolLoop (color : UInt8) : List CString → Kernel Unit
  | [] => return ()
  | line :: lines => do
    console [.setColor printColorYellow color, .str "disktool > ",
      .setColor printColorWhite color, .newline]
    let goOn ← disktoolLine color line
    if goOn then disktoolLoop color lines else return ()

def startDisktool (color : UInt8) (lines : List CString) : Kernel Unit := do
  console [.str "Welcome to disktool. ", .newline,
    .str "Type help to get list of all commands", .newline]
  disktoolLoop color lines

end Model

section Commands

/-- The number at the beginning of a text, modulo 2^32. -/
def number (text : List UInt8) : UInt32 := UInt32.ofNat (leadingValue text)

def fsNamed (text : List UInt8) : FileSystemType :=
  if text = chars "ext4" then .ext4 else .fat32

/-- The file system of `newpart`: FAT32 without a second word. -/
def secondWord (text : List UInt8) : FileSystemType :=
  match text.dropWhile (· ≠ 32) with
  | [] => .fat32
  | _ :: word => fsNamed word

/-- The command that a line stands for. -/
def CString.command (line : CString) : Option Command :=
  let text := line.bytes
  if text = chars "listdisks" then some .listDisks
  else if text = chars "update" then some .update
  else if text = chars "format" then some (.formatDisk .ext4)
  else if chars "format " <+: text then some (.formatDisk (fsNamed (text.drop 7)))
  else if chars "selectdisk " <+: text then some (.selectDisk (cInt (number (text.drop 11))))
  else if chars "newpart " <+: text then
    some (.createPartitionMb (number ((text.drop 8).takeWhile (· ≠ 32))) (secondWord (text.drop 8)))
  else if chars "delpart " <+: text then some (.deletePartition (cInt (number (text.drop 8))))
  else if text = chars "partinfo" then some .displayPartitionInfo
  else none

/-- A line without a command leaves everything alone. -/
def System.line (t : System) (line : CString) : System :=
  match line.command with
  | none => t
  | some k => (t.step k).2

/-- The lines up to `exit`. -/
def System.session (t : System) : List CString → System
  | [] => t
  | line :: lines =>
    if line.bytes = chars "exit" then t.line line else (t.line line).session lines

theorem parseFsType_eq {text : List UInt8} (h : 0 ∉ text) : parseFsType text = fsNamed text := by
  rw [parseFsType, fsNamed, if_congr (strcmp_eq_zero_iff _ _ h (by decide)) rfl rfl]

theorem strtoul_fst (text : List UInt8) : (strtoul text 10).1 = number text := by
  rw [strtoul_ten]
  rfl

theorem splitSize_eq {text : List UInt8} (h : 0 ∉ text) :
    splitSize text = (text.takeWhile (· ≠ 32), secondWord text) := by
  have hsplit := List.takeWhile_append_dropWhile (p := (· ≠ 32)) (l := text)
  rw [splitSize, strchr_eq, secondWord]
  cases hrest : text.dropWhile (· ≠ 32) with
  | nil =>
    rw [hrest, List.append_nil] at hsplit
    simp only [if_true, hsplit]
  | cons space word =>
    have hword : 0 ∉ word := fun hmem => h (by rw [← hsplit, hrest]; simp [hmem])
    have htake : text.take (text.length - (space :: word).length) = text.takeWhile (· ≠ 32) := by
      have hlength := congrArg List.length hsplit
      rw [hrest, List.length_append] at hlength
      rw [show text.length - (space :: word).length = (text.takeWhile (· ≠ 32)).length by omega]
      nth_rewrite 2 [← hsplit]
      exact List.take_left
    simp only [reduceCtorEq, if_false, List.tail_cons, parseFsType_eq hword, htake]

end Commands

section Turn

variable {line : CString}

/-- What the shell prints for a command with this result. -/
def Command.report : Command → ℤ → List PrintCall
  | .selectDisk _, rc => if rc = 0 then [.str "Disk selected successfully.", .newline] else []
  | .createPartitionMb _ _, rc =>
    if rc = 0 then [.str "Partition created successfully.", .newline] else []
  | _, _ => []

/-- What the shell prints for a line without a command. -/
def CString.reply (line : CString) (color : UInt8) : List PrintCall :=
  if line.bytes = [] then []
  else if line.bytes = chars "help" then helpCalls color
  else [.str "Unknown command. Type 'help' for available commands.", .newline]

theorem console_nil : console [] = pure () := by
  funext s
  have hprint : s.print [] = s := by rw [Machine.print, List.append_nil]
  exact congrArg (fun t => some ((), t)) hprint

theorem command_of_exit (h : line.bytes = chars "exit") : line.command = none := by
  unfold CString.command
  rw [h]
  rfl

theorem command_of_nil (h : line.bytes = []) : line.command = none := by
  unfold CString.command
  rw [h]
  rfl

theorem command_of_help (h : line.bytes = chars "help") : line.command = none := by
  unfold CString.command
  rw [h]
  rfl

/-- One turn runs the handler of the command of its line and no other. -/
theorem disktoolLine_eq (color : UInt8) (line : CString) :
    disktoolLine color line = match line.command with
      | some k => do
        let rc ← k.exec
        console (k.report rc)
        return true
      | none =>
        if line.bytes = chars "exit" then return false
        else do
          console (line.reply color)
          return true := by
  have hcompare : ∀ text : List UInt8, 0 ∉ text →
      (strcmp line.bytes text = 0 ↔ line.bytes = text) := fun text htext =>
    strcmp_eq_zero_iff _ _ line.noNul htext
  have hdrop : ∀ n, 0 ∉ line.bytes.drop n := fun n h => line.noNul (List.mem_of_mem_drop h)
  have hformat : strncmp line.bytes (chars "format ") 7 = 0 ↔ chars "format " <+: line.bytes :=
    strncmp_eq_zero_iff _ _ (by decide)
  have hselectdisk : strncmp line.bytes (chars "selectdisk ") 11 = 0 ↔
      chars "selectdisk " <+: line.bytes := strncmp_eq_zero_iff _ _ (by decide)
  have hnewpart : strncmp line.bytes (chars "newpart ") 8 = 0 ↔ chars "newpart " <+: line.bytes :=
    strncmp_eq_zero_iff _ _ (by decide)
  have hdelpart : strncmp line.bytes (chars "delpart ") 8 = 0 ↔ chars "delpart " <+: line.bytes :=
    strncmp_eq_zero_iff _ _ (by decide)
  simp only [disktoolLine, hcompare _ (by decide : 0 ∉ chars "help"),
    hcompare _ (by decide : 0 ∉ chars "listdisks"), hcompare _ (by decide : 0 ∉ chars "update"),
    hcompare _ (by decide : 0 ∉ chars "format"), hcompare _ (by decide : 0 ∉ chars "partinfo"),
    hcompare _ (by decide : 0 ∉ chars "exit"), hformat, hselectdisk, hnewpart, hdelpart,
    strtoul_fst, splitSize_eq (hdrop 8), parseFsType_eq (hdrop 7)]
  by_cases hempty : line.bytes = []
  · rw [if_pos hempty, command_of_nil hempty, if_neg (by rw [hempty]; decide), CString.reply,
      if_pos hempty, console_nil, pure_bind]
  rw [if_neg hempty]
  by_cases hhelp : line.bytes = chars "help"
  · rw [if_pos hhelp, command_of_help hhelp, if_neg (by rw [hhelp]; decide), CString.reply,
      if_neg hempty, if_pos hhelp]
  rw [if_neg hhelp]
  -- from here on both chains of comparisons are walked down together
  have hcommand := CString.command.eq_def line
  by_cases hlist : line.bytes = chars "listdisks"
  · rw [if_pos hlist] at hcommand ⊢
    simp only [hcommand, Command.exec, Command.report, console_nil, bind_assoc, pure_bind]
  rw [if_neg hlist] at hcommand ⊢
  by_cases hupdate : line.bytes = chars "update"
  · rw [if_pos hupdate] at hcommand ⊢
    simp only [hcommand, Command.exec, Command.report, console_nil, bind_assoc, pure_bind]
  rw [if_neg hupdate] at hcommand ⊢
  by_cases hformat' : line.bytes = chars "format"
  · rw [if_pos hformat'] at hcommand ⊢
    simp only [hcommand, Command.exec, Command.report, console_nil, pure_bind]
  rw [if_neg hformat'] at hcommand ⊢
  by_cases hformatFs : chars "format " <+: line.bytes
  · rw [if_pos hformatFs] at hcommand ⊢
    simp only [hcommand, Command.exec, Command.report, console_nil, pure_bind]
  rw [if_neg hformatFs] at hcommand ⊢
  by_cases hselect : chars "selectdisk " <+: line.bytes
  · rw [if_pos hselect] at hcommand ⊢
    simp only [hcommand, Command.exec, Command.report]
  rw [if_neg hselect] at hcommand ⊢
  by_cases hnew : chars "newpart " <+: line.bytes
  · rw [if_pos hnew] at hcommand ⊢
    simp only [hcommand, Command.exec, Command.report]
  rw [if_neg hnew] at hcommand ⊢
  by_cases hdel : chars "delpart " <+: line.bytes
  · rw [if_pos hdel] at hcommand ⊢
    simp only [hcommand, Command.exec, Command.report, console_nil, pure_bind]
  rw [if_neg hdel] at hcommand ⊢
  by_cases hinfo : line.bytes = chars "partinfo"
  · rw [if_pos hinfo] at hcommand ⊢
    simp only [hcommand, Command.exec, Command.report, console_nil, bind_assoc, pure_bind]
  rw [if_neg hinfo] at hcommand ⊢
  rw [hcommand, CString.reply, if_neg hempty, if_neg hhelp]

/-- What the rest of the system sees of a turn. -/
def System.turn (line : CString) (t : System) : Bool × System :=
  (decide (line.bytes ≠ chars "exit"), t.line line)

theorem disktoolLine_does (color : UInt8) (line : CString) :
    Does (disktoolLine color line) (System.turn line) := by
  rw [disktoolLine_eq]
  cases hcommand : line.command with
  | some k =>
    have hexit : line.bytes ≠ chars "exit" := by
      intro hexit
      rw [command_of_exit hexit] at hcommand
      cases hcommand
    have hturn : Does (do let rc ← k.exec; console (k.report rc); return true)
        fun t => (true, (t.step k).2) :=
      Simulates.bind k.exec_does fun rc =>
        Simulates.bind (console_does (k.report rc)) fun _ => Simulates.pure true
    apply hturn.of_eq
    intro t
    simp [System.turn, System.line, hcommand, hexit]
  | none =>
    dsimp only
    by_cases hexit : line.bytes = chars "exit"
    · rw [if_pos hexit]
      apply (Simulates.pure false).of_eq
      intro t
      simp [System.turn, System.line, hcommand, hexit]
    · rw [if_neg hexit]
      have hturn : Does (do console (line.reply color); return true) fun t => (true, t) :=
        Simulates.bind (console_does _) fun _ => Simulates.pure true
      apply hturn.of_eq
      intro t
      simp [System.turn, System.line, hcommand, hexit]

end Turn

section Session

theorem disktoolLoop_does (color : UInt8) (lines : List CString) :
    Does (disktoolLoop color lines) fun t => ((), t.session lines) := by
  induction lines with
  | nil => exact Simulates.pure ()
  | cons line lines ih =>
    have hstop : Does (return ()) fun t => ((), t) := Simulates.pure ()
    refine (Simulates.bind (console_does _) fun _ => Simulates.bind (disktoolLine_does color line)
      fun goOn => Simulates.ite (fun _ => ih) fun _ => hstop).of_eq fun t => ?_
    rw [System.session, System.turn]
    by_cases hexit : line.bytes = chars "exit" <;> simp [hexit]

theorem startDisktool_does (color : UInt8) (lines : List CString) :
    Does (startDisktool color lines) fun t => ((), t.session lines) :=
  Simulates.bind (console_does _) fun _ => disktoolLoop_does color lines

theorem System.session_concat (t : System) {lines : List CString} {line : CString}
    (h : ∀ line ∈ lines, line.bytes ≠ chars "exit") :
    t.session (lines ++ [line]) = (t.session lines).line line := by
  induction lines generalizing t with
  | nil =>
    rw [List.nil_append, session, session, session]
    exact ite_self _
  | cons first lines ih =>
    obtain ⟨hfirst, hrest⟩ := List.forall_mem_cons.mp h
    rw [List.cons_append, session, session, if_neg hfirst, if_neg hfirst, ih _ hrest]

/-- A state that lines typed after booting lead to. -/
def Typed (s : Machine) : Prop :=
  ∃ s₀ color lines, s₀.Booted ∧ Run (disktoolLine color) (fun _ _ => True) s₀ lines s

theorem Typed.ready {s : Machine} (h : Typed s) : s.Ready := by
  obtain ⟨s₀, color, lines, hboot, hrun⟩ := h
  exact (hrun.simulated (disktoolLine_does color) hboot.ready).1

end Session

end EtyOS
