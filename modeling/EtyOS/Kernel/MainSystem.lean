import EtyOS.Kernel.Background

/-!
# What a history does to the disks

Which loop reads the next line, the disks and the table of disks follow from the
lines alone: neither the screen, the colours, the pool nor the stack matter. `turn`
acts on this view as a total function, and so does a whole history.
-/

namespace EtyOS

open Library Main

/-- The part of the state that decides what a line does to the disks. -/
@[ext]
structure MainView where
  inDisktool : Bool
  system : System

def MainState.view (t : MainState) : MainView := ⟨t.inDisktool, t.machine.system⟩

/-- `kernel_main` leaves the disks to `start_disktool`: three of its commands read
them, none writes. -/
def System.kernelLine (t : System) (line : CString) : System :=
  if line.bytes = chars "dsks" then
    { t with config := { t.config with scanned := t.config.scanned + 4 } }
  else if line.bytes = chars "checkfs" then { t with disk := t.disk.read 0 0 0 }
  else if line.bytes = chars "partitions" then { t with disk := t.disk.displayPartitions }
  else t

namespace MainView

/-- One line, read by the loop that waits for it. -/
def turn (v : MainView) (line : CString) : MainView where
  inDisktool := nextReader v.inDisktool line
  system := if v.inDisktool then v.system.line line else v.system.kernelLine line

/-- At the first prompt the disks have been scanned once. -/
def boot (m : Machine) : MainView := ⟨false, { m.system with config := m.config.rescan }⟩

end MainView

abbrev MainDoes {α : Type} (x : Main α) (f : MainView → α × MainView) : Prop :=
  Simulates MainState.view (fun t => t.machine.Ready) x f

/-- A function of the disks and the table alone. -/
def MainView.onSystem {α : Type} (f : System → α × System) (v : MainView) : α × MainView :=
  ((f v.system).1, { v with system := (f v.system).2 })

section Calls

theorem run_exec {α : Type} {x : Kernel α} {t : MainState} {a : α} {s' : Machine}
    (h : x.run { t.machine with printed := [] } = some (a, s')) :
    (exec x).run t =
      some (a, { t with machine := s', output := t.output ++ s'.printed.map .call }) := by
  change Option.map _ (x.run { t.machine with printed := [] }) = _
  rw [h]
  rfl

theorem exec_does {α : Type} {x : Kernel α} {f : System → α × System} (hx : Does x f) :
    MainDoes (exec x) (MainView.onSystem f) := by
  intro t ht
  obtain ⟨s', hrun, hsystem, hready⟩ := hx { t.machine with printed := [] } ht
  exact ⟨_, run_exec hrun, MainView.ext rfl hsystem, hready⟩

theorem execConsole_does (calls : List PrintCall) :
    MainDoes (exec (console calls)) fun v => ((), v) := exec_does (console_does calls)

theorem printClear_does : MainDoes printClear fun v => ((), v) := fun _ ht => ⟨_, rfl, rfl, ht⟩

theorem setColor_does (color : Int32) : MainDoes (setColor color) fun v => ((), v) :=
  fun _ ht => ⟨_, rfl, rfl, ht⟩

theorem setReader_does (inDisktool : Bool) :
    MainDoes (setReader inDisktool) fun v => ((), { v with inDisktool := inDisktool }) :=
  fun _ ht => ⟨_, rfl, rfl, ht⟩

/-- The state is read first, and the rest may depend on it. -/
theorem getState_does {α : Type} {g : MainState → Main α} {f : MainView → α × MainView}
    (h : ∀ t, t.machine.Ready →
      SimulatesAt MainState.view (fun t => t.machine.Ready) (g t) f t) :
    MainDoes (do let t ← get; g t) f := fun t ht => h t ht

theorem nextPrompt_does : MainDoes nextPrompt fun v => ((), v) :=
  getState_does fun t ht => execConsole_does _ t ht

/-- The scan for the listing uses up four answers and enters nothing. -/
theorem displayDrive_does (c d : Fin 2) (driveCount : ℕ) :
    Does (displayDrive c d driveCount) fun t =>
      ((match t.config.identify t.config.scanned with
        | none => driveCount
        | some _ => driveCount + 1),
        { t with config := { t.config with scanned := t.config.scanned + 1 } }) := by
  intro s hs
  have hanswer : s.system.config.identify s.system.config.scanned =
      s.bus.identify s.bus.scanned := rfl
  have hrun := run_identify c d s
  dsimp only [SimulatesAt]
  rw [displayDrive, run_bind_of_run _ hrun, hanswer]
  cases s.bus.identify s.bus.scanned with
  | none => exact ⟨s.identify c d, rfl, rfl, hs⟩
  | some a => exact ⟨_, rfl, rfl, hs⟩

theorem displayAvailableDisks_does :
    Does displayAvailableDisks fun t =>
      ((), { t with config := { t.config with scanned := t.config.scanned + 4 } }) := by
  have hlast (n : ℕ) : Does (if n = 0 then console [.str "No drives found.", .newline]
      else return ()) fun t => ((), t) :=
    (Simulates.ite (fun _ => console_does _) fun _ => Simulates.pure ()).of_eq fun t => by
      split <;> rfl
  exact Simulates.bind (console_does _) fun _ => Simulates.bind (displayDrive_does 0 0 0) fun _ =>
    Simulates.bind (displayDrive_does 0 1 _) fun _ =>
      Simulates.bind (displayDrive_does 1 0 _) fun _ =>
        Simulates.bind (displayDrive_does 1 1 _) fun _ => hlast _

end Calls

/-! ### The filesystem check -/

section Check

variable (array : LocalArray)

def LocalArray.dumpCalls (i : ℤ) : ℕ → List PrintCall
  | 0 => []
  | n + 1 => .str (String.ofList [hexDigit (array i >>> 4), hexDigit (array i &&& 0x0F)]) ::
      .str " " :: dumpCalls (i + 1) n

/-- What the classification of a sector prints. -/
def LocalArray.classifyCalls : List PrintCall :=
  if array.HasSignature 0x52 (chars "FAT32") then [.str "Filesystem detected: FAT32"]
  else if array.HasSignature 0x36 (chars "FAT16") then [.str "Filesystem detected: FAT16"]
  else if array.HasSignature 0x8001 (chars "CD001") then
    [.str "Filesystem detected: ISO9660 (CD-ROM)"]
  else [.str "Filesystem type: Unknown or unsupported.", .str "Boot Sector Data: "] ++
    array.dumpCalls 0 64 ++ [.newline]

@[simp] theorem Machine.print_print (s : Machine) (calls calls' : List PrintCall) :
    (s.print calls).print calls' = s.print (calls ++ calls') := by
  simp [Machine.print]

@[simp] theorem Machine.print_nil (s : Machine) : s.print [] = s := by
  rw [Machine.print, List.append_nil]

theorem console_prints (calls : List PrintCall) (s : Machine) :
    Appends (liftM (console calls) : Reading Unit) s [] () (s.print calls) :=
  Appends.lift (run_console calls s)

theorem dumpBytes_prints (i : ℤ) (n : ℕ) (s : Machine) :
    Appends (Reading.dumpBytes array i n) s (LocalArray.dumpSpan i n) ()
      (s.print (array.dumpCalls i n)) := by
  induction n generalizing i s with
  | zero =>
    rw [LocalArray.dumpCalls, Machine.print_nil]
    exact Appends.pure () s
  | succ n ih =>
    have hrest := ih (i + 1) (s.print [.str (String.ofList [hexDigit (array i >>> 4),
      hexDigit (array i &&& 0x0F)]), .str " "])
    rw [Machine.print_print] at hrest
    exact (readByte_appends array i s).bind
      ((readByte_appends array i s).bind ((console_prints _ s).bind hrest))

/-- A test of a signature, and what is printed in the two cases. -/
theorem ite_signature_prints {a : ℤ} {text : List UInt8} {x y : Reading Unit} {s : Machine}
    {later : List ℤ} {calls calls' : List PrintCall} (hx : Appends x s [] () (s.print calls))
    (hy : Appends y s later () (s.print calls')) :
    Appends (do if ← Reading.testSignature array a text then x else y) s
      (array.testSpan a text ++ if array.HasSignature a text then [] else later) ()
      (s.print (if array.HasSignature a text then calls else calls')) := by
  have htest := testSignature_appends array a text s
  by_cases hfound : array.HasSignature a text
  · rw [decide_eq_true hfound] at htest
    rw [if_pos hfound, if_pos hfound]
    exact htest.bind hx
  · rw [decide_eq_false hfound] at htest
    rw [if_neg hfound, if_neg hfound]
    exact htest.bind hy

theorem classifySector_prints (s : Machine) :
    Appends (classifySector array) s array.classifySpan () (s.print array.classifyCalls) := by
  refine ite_signature_prints array (console_prints _ s) (ite_signature_prints array
    (console_prints _ s) (ite_signature_prints array (console_prints _ s) ?_))
  have hdump := dumpBytes_prints array 0 64
    (s.print [.str "Filesystem type: Unknown or unsupported.", .str "Boot Sector Data: "])
  have hlast := console_prints [.newline] (s.print
    ([.str "Filesystem type: Unknown or unsupported.", .str "Boot Sector Data: "] ++
      array.dumpCalls 0 64))
  rw [Machine.print_print] at hdump hlast
  exact (console_prints _ s).bind (hdump.bind hlast)

/-- What the attempt to load sector 0 prints. -/
def DiskState.loadCalls (k : DiskState) : List PrintCall :=
  if k.next.abort then [.str "Error reading from disk.", .str "Error: Unable to read boot sector."]
  else []

theorem readBootSector_prints (frame : LocalArray) (s : Machine) :
    ∃ buffer, (readBootSector fun i => frame i).run s =
        some (buffer, (s.read 0 0 0).print s.disk.loadCalls) ∧
      LocalArray.ofMemory buffer frame = s.bootArray frame := by
  have hread := run_readSector 0 0 0 0 (fun i => frame i) s
  have hnext : s.disk.next = s.bus.next := rfl
  unfold readBootSector Machine.bootArray DiskState.loadCalls
  rw [ataReadSector_eq_disk, hnext]
  by_cases habort : s.bus.next.abort = true
  · rw [if_pos habort] at hread
    rw [run_bind_of_run _ hread, if_pos habort, if_pos habort]
    refine ⟨_, ?_, LocalArray.ofMemory_self frame⟩
    change some (_, Machine.print (Machine.print _ _) _) = _
    rw [Machine.print_print]
    rfl
  · rw [if_neg habort] at hread
    rw [run_bind_of_run _ hread, if_neg habort, if_neg habort, Machine.print_nil]
    exact ⟨_, rfl, LocalArray.ofMemory_toMemory _ _ _⟩

/-- What `check_filesystem` prints. -/
def Machine.checkCalls (s : Machine) (frame : LocalArray) : List PrintCall :=
  [.str "Checking filesystem...", .newline] ++ s.disk.loadCalls ++
    (s.bootArray frame).classifyCalls ++ [.newline]

theorem checkFilesystem_run (frame : LocalArray) (s : Machine) :
    ∃ reads, ((checkFilesystem frame).run []).run s =
      some (((), reads), (s.read 0 0 0).print (s.checkCalls frame)) := by
  obtain ⟨buffer, hload, harray⟩ :=
    readBootSector_prints frame (s.print [.str "Checking filesystem...", .newline])
  have harray' : LocalArray.ofMemory buffer frame = s.bootArray frame := harray
  have hdisk : (s.print [.str "Checking filesystem...", .newline]).disk = s.disk := rfl
  have hread : (s.print [.str "Checking filesystem...", .newline]).read 0 0 0 =
      (s.read 0 0 0).print [.str "Checking filesystem...", .newline] := rfl
  rw [hdisk, hread, Machine.print_print] at hload
  have hclassify := classifySector_prints (LocalArray.ofMemory buffer frame)
    ((s.read 0 0 0).print ([.str "Checking filesystem...", .newline] ++ s.disk.loadCalls))
  rw [harray', Machine.print_print] at hclassify
  have hlast := console_prints [.newline] ((s.read 0 0 0).print
    ([.str "Checking filesystem...", .newline] ++ s.disk.loadCalls ++
      (s.bootArray frame).classifyCalls))
  rw [Machine.print_print] at hlast
  rw [← harray'] at hclassify hlast
  rw [Machine.checkCalls, ← harray']
  exact ⟨_, ((console_prints _ s).bind ((Appends.lift hload).bind
    (hclassify.bind hlast))) []⟩

end Check

/-! ### Turns and histories -/

section Turn

variable (frame : MainState → LocalArray) (line : CString)

/-- The state after `checkfs`. -/
def MainState.checked (t : MainState) : MainState :=
  { t with
    machine := ({ t.machine with printed := [] }.read 0 0 0).print (t.machine.checkCalls (frame t))
    output := t.output ++ (t.machine.checkCalls (frame t)).map .call }

theorem checkfs_run (t : MainState) :
    (do
      let t ← get
      let _ ← exec ((checkFilesystem (frame t)).run [])
      return () : Main Unit).run t = some ((), t.checked frame) := by
  obtain ⟨reads, hrun⟩ := checkFilesystem_run (frame t) { t.machine with printed := [] }
  have hcalls : Machine.checkCalls { t.machine with printed := [] } (frame t) =
      t.machine.checkCalls (frame t) := rfl
  have hprinted (calls : List PrintCall) :
      ((({ t.machine with printed := [] } : Machine).read 0 0 0).print calls).printed = calls := rfl
  rw [hcalls] at hrun
  have hexec := run_exec hrun
  rw [hprinted] at hexec
  have hget : (get : Main MainState).run t = some (t, t) := rfl
  rw [Main.run_bind hget, Main.run_bind hexec]
  rfl

theorem checkfs_does :
    MainDoes (do
      let t ← get
      let _ ← exec ((checkFilesystem (frame t)).run [])
      return ()) (MainView.onSystem fun t => ((), { t with disk := t.disk.read 0 0 0 })) :=
  fun t ht => ⟨t.checked frame, checkfs_run frame t, rfl, ht⟩

theorem setcolor_does : MainDoes (setcolor line.bytes) fun v => ((), v) := by
  have hcall (calls : List PrintCall) : MainDoes (exec (console calls)) fun v => ((), v) :=
    execConsole_does calls
  have hnumber : (strtoul (line.bytes.drop 9) 10).1 = requested line := strtoul_fst _
  have haccepted : MainDoes (do
      exec (console [.setColor printColorWhite (colorByte (requested line).toInt32)])
      printClear
      exec (console [.setColor printColorWhite (colorByte (requested line).toInt32)])
      printClear
      exec (console [.str "Colors updated."])
      exec (console [.newline])) fun v => ((), v) :=
    Simulates.bind (hcall _) fun _ => Simulates.bind printClear_does fun _ =>
      Simulates.bind (hcall _) fun _ => Simulates.bind printClear_does fun _ =>
        Simulates.bind (hcall _) fun _ => hcall _
  have hrejected : MainDoes (do
      exec (console [.str "Invalid color value. Use numbers between 0 and 14."])
      exec (console [.newline])) fun v => ((), v) := Simulates.bind (hcall _) fun _ => hcall _
  unfold setcolor
  rw [hnumber]
  dsimp only
  refine Simulates.bind (setColor_does _) fun _ => ?_
  split
  · exact haccepted
  · exact hrejected

/-- One line of `kernel_main`, and who reads next. -/
def MainView.kernelTurn (v : MainView) (line : CString) : MainView :=
  ⟨if line.bytes = chars "disktool" then true else v.inDisktool, v.system.kernelLine line⟩

/-- A line that reads no disk and starts no loop. -/
theorem kernelTurn_quiet {v : MainView} {line : CString} (hdisktool : line.bytes ≠ chars "disktool")
    (hdsks : line.bytes ≠ chars "dsks") (hcheckfs : line.bytes ≠ chars "checkfs")
    (hpartitions : line.bytes ≠ chars "partitions") : v.kernelTurn line = v := by
  rw [MainView.kernelTurn, System.kernelLine, if_neg hdisktool, if_neg hdsks, if_neg hcheckfs,
    if_neg hpartitions]

theorem kernelLine_dsks (h : line.bytes = chars "dsks") :
    Main.kernelLine frame line = exec displayAvailableDisks := by
  unfold Main.kernelLine
  rw [h]
  rfl

theorem kernelLine_checkfs (h : line.bytes = chars "checkfs") :
    Main.kernelLine frame line = do
      let t ← get
      let _ ← exec ((checkFilesystem (frame t)).run [])
      return () := by
  unfold Main.kernelLine
  rw [h]
  rfl

theorem kernelLine_partitions (h : line.bytes = chars "partitions") :
    Main.kernelLine frame line = exec displayPartitions := by
  unfold Main.kernelLine
  rw [h]
  rfl

theorem kernelLine_does :
    MainDoes (Main.kernelLine frame line) fun v => ((), v.kernelTurn line) := by
  -- first the four lines that touch the view
  by_cases hdisktool : line.bytes = chars "disktool"
  · rw [kernelLine_disktool frame hdisktool]
    refine (Simulates.bind (execConsole_does _) fun _ => setReader_does true).of_eq fun v => ?_
    rw [MainView.kernelTurn, System.kernelLine, hdisktool]
    rfl
  by_cases hdsks : line.bytes = chars "dsks"
  · rw [kernelLine_dsks frame line hdsks]
    refine (exec_does displayAvailableDisks_does).of_eq fun v => ?_
    rw [MainView.kernelTurn, System.kernelLine, if_neg hdisktool, if_pos hdsks]
    rfl
  by_cases hcheckfs : line.bytes = chars "checkfs"
  · rw [kernelLine_checkfs frame line hcheckfs]
    refine (checkfs_does frame).of_eq fun v => ?_
    rw [MainView.kernelTurn, System.kernelLine, if_neg hdisktool, if_neg hdsks, if_pos hcheckfs]
    rfl
  by_cases hpartitions : line.bytes = chars "partitions"
  · rw [kernelLine_partitions frame line hpartitions]
    refine (exec_does displayPartitions_does).of_eq fun v => ?_
    rw [MainView.kernelTurn, System.kernelLine, if_neg hdisktool, if_neg hdsks, if_neg hcheckfs,
      if_pos hpartitions]
    rfl
  have hcompare : ∀ text : List UInt8, 0 ∉ text →
      (strcmp line.bytes text = 0 ↔ line.bytes = text) := fun text htext =>
    strcmp_eq_zero_iff _ _ line.noNul htext
  simp only [Main.kernelLine, hcompare _ (by decide : 0 ∉ chars "disktool"),
    hcompare _ (by decide : 0 ∉ chars "dsks"), hcompare _ (by decide : 0 ∉ chars "checkfs"),
    hcompare _ (by decide : 0 ∉ chars "partitions"), if_neg hdisktool, if_neg hdsks,
    if_neg hcheckfs, if_neg hpartitions, kernelTurn_quiet hdisktool hdsks hcheckfs hpartitions]
  split
  · exact Simulates.pure ()
  split
  · exact execConsole_does _
  split
  · exact printClear_does
  split
  · exact execConsole_does _
  split
  · exact execConsole_does _
  split
  · exact setcolor_does line
  · exact execConsole_does _

/-- A turn reads its line in the loop that waits, and comes back with the next prompt. -/
theorem turn_does : MainDoes (turn frame line) fun v => ((), v.turn line) := by
  have hdisktool (color : Int32) : MainDoes (do
      let goOn ← exec (disktoolLine (colorByte color) line)
      if goOn then nextPrompt
      else
        setReader false
        nextPrompt) fun v => ((), ⟨if line.bytes = chars "exit" then false else v.inDisktool,
          v.system.line line⟩) := by
    refine (Simulates.bind (exec_does (disktoolLine_does _ line)) fun goOn =>
      Simulates.ite (fun _ => nextPrompt_does) fun _ =>
        Simulates.bind (setReader_does false) fun _ => nextPrompt_does).of_eq fun v => ?_
    by_cases hexit : line.bytes = chars "exit" <;>
      simp [MainView.onSystem, System.turn, hexit]
  have hkernel : MainDoes (do
      Main.kernelLine frame line
      nextPrompt) fun v => ((), v.kernelTurn line) :=
    Simulates.bind (kernelLine_does frame line) fun _ => nextPrompt_does
  have hrest : MainDoes (do
      let t ← get
      if t.inDisktool then do
        let goOn ← exec (disktoolLine (colorByte t.color) line)
        if goOn then nextPrompt
        else
          setReader false
          nextPrompt
      else do
        Main.kernelLine frame line
        nextPrompt) fun v => ((), v.turn line) := by
    refine getState_does fun t ht => ?_
    by_cases hreader : t.inDisktool = true
    · rw [if_pos hreader]
      refine (hdisktool t.color t ht).congr ?_
      rw [MainView.turn, nextReader, MainState.view, hreader]
      by_cases hexit : line.bytes = chars "exit" <;> simp [hexit]
    · rw [if_neg hreader]
      refine (hkernel t ht).congr ?_
      rw [MainView.turn, nextReader, MainView.kernelTurn, MainState.view,
        Bool.eq_false_iff.mpr hreader]
      by_cases hdisktool : line.bytes = chars "disktool" <;> simp [hdisktool]
  exact Simulates.bind (execConsole_does _) fun _ => hrest

end Turn

section History

variable {frame : MainState → LocalArray} {m : Machine} {lines : List CString} {t : MainState}

theorem boot_view (hrun : boot.run (.start m) = some ((), t)) : t.view = MainView.boot m := by
  let t₁ : MainState :=
    { MainState.start m with
      machine := { m with printed := [], memory := memoryAllocatorInit m.poolBase m.memory }
      output := .clear :: banner.map .call }
  have hboot : boot.run (.start m) = (do
      exec initDisktool
      setColor 0
      exec (console [.setColor printColorWhite (colorByte 0)])
      nextPrompt : Main Unit).run t₁ := rfl
  have hready : t₁.machine.Ready := Or.inl (poolFresh_init m.memory)
  have hfirst : MainDoes (do
      exec initDisktool
      setColor 0
      exec (console [.setColor printColorWhite (colorByte 0)])
      nextPrompt) (MainView.onSystem (System.onConfig fun g => ((), g.rescan))) :=
    Simulates.bind (exec_does initDisktool_does) fun _ => Simulates.bind (setColor_does 0) fun _ =>
      Simulates.bind (execConsole_does _) fun _ => nextPrompt_does
  rw [hboot] at hrun
  exact (hfirst.inversion hready hrun).2.1

/-- The view after booting and these lines. -/
def MainView.after (m : Machine) (lines : List CString) : MainView :=
  lines.foldl MainView.turn (MainView.boot m)

theorem MainView.after_concat (m : Machine) (lines : List CString) (line : CString) :
    after m (lines ++ [line]) = (after m lines).turn line := List.foldl_concat ..

theorem Reached.view (h : Reached frame m lines t) : t.view = MainView.after m lines := by
  obtain ⟨t₀, hboot, hrun⟩ := h
  have hready := ((boot_reaches m).result hboot).1
  rw [(hrun.simulated (turn_does frame) hready).2, boot_view hboot]
  rfl

/-- From every machine, whatever the stack holds, every history comes to its next
prompt, and what it leaves on the disks and in the table of disks is the fold of its
lines: no colour, no screen and no pool has a say in it. -/
theorem history_refines (frame : MainState → LocalArray) (m : Machine) (lines : List CString) :
    (∃ t, Reached frame m lines t) ∧
      ∀ t, Reached frame m lines t → t.view = MainView.after m lines :=
  ⟨Reached.exists frame m lines, fun _ => Reached.view⟩

end History

end EtyOS
