import EtyOS.Kernel.MainSystem

/-!
# The conduct of the kernel functions

A preorder on machines that the driver calls satisfy, and every step that leaves the bus
and the pool alone, is satisfied by every run of every kernel function but `format_ext4`,
and by this one if the steps on the pool satisfy it as well. The rules follow the
functions one by one, up to a turn of `kernel_main`.
-/

namespace EtyOS

open Library

section Rules

variable {α : Type} {R : Machine → Machine → Prop} [IsPreorder Machine R]

theorem relates_bufferRead (f : Memory → α) : Relates R (bufferRead f) :=
  Relates.get.bind fun _ => Relates.pure _

/-- A step that may fail before the rest. -/
theorem relates_andThen {x y : Kernel ℤ} (hx : Relates R x) (hy : Relates R y) :
    Relates R (do let rc ← x; if rc ≠ 0 then return -1 else y) :=
  hx.bind fun _ => Relates.ite (fun _ => Relates.pure _) fun _ => hy

end Rules

/-- The relation holds of the driver calls, and of what leaves the bus and the pool alone. -/
structure Machine.Closed (R : Machine → Machine → Prop) : Prop where
  quiet : ∀ s s' : Machine, s'.bus = s.bus → s'.memory = s.memory → s'.poolBase = s.poolBase →
    R s s'
  readSector : ∀ c d lba buffer m,
    Relates R (driver fun budget => Driver.ataReadSectorDisk budget c d lba buffer m)
  writeSector : ∀ c d lba buffer m,
    Relates R (driver fun budget => Driver.ataWriteSectorDisk budget c d lba buffer m)
  identifyDrive : ∀ c d, Relates R (driver fun budget => Driver.identifyDrive budget c d)

/-- It holds of the steps on the pool as well. -/
structure Machine.ClosedWithPool (R : Machine → Machine → Prop) : Prop extends Closed R where
  pool : ∀ s s' : Machine, s'.bus = s.bus → R s s'

namespace Machine.Closed

variable {α : Type} {R : Machine → Machine → Prop} (h : Closed R)

include h

theorem modify {f : Machine → Machine} (hbus : ∀ s, (f s).bus = s.bus)
    (hmemory : ∀ s, (f s).memory = s.memory) (hbase : ∀ s, (f s).poolBase = s.poolBase) :
    Relates R (modify f : Kernel Unit) :=
  Relates.modify fun s => h.quiet s _ (hbus s) (hmemory s) (hbase s)

theorem console (calls : List PrintCall) : Relates R (console calls) :=
  h.modify (fun _ => rfl) (fun _ => rfl) fun _ => rfl

theorem record (e : Event) : Relates R (record e) :=
  h.modify (fun _ => rfl) (fun _ => rfl) fun _ => rfl

theorem selectDisk (i : ℤ) : Relates R (selectDisk i) := by
  intro s rc s' hrun
  by_cases hindex : i < 0 ∨ i ≥ s.numDisks
  · have hreject : (EtyOS.selectDisk i).run s =
        some (-1, s.print [.str "Invalid disk index", .newline]) := by
      simp [EtyOS.selectDisk, hindex]
    obtain ⟨-, rfl⟩ := Prod.mk.inj (Option.some.inj (hreject.symm.trans hrun))
    exact h.quiet s _ rfl rfl rfl
  · have hselect : (EtyOS.selectDisk i).run s =
        some (0, { s with currentDisk := i }.print [.str "Selected disk: ",
          .str (cString (s.availableDisks i.toNat).model), .newline]) := by
      simp only [EtyOS.selectDisk, run_bind_of_run _ (run_get s), if_neg hindex]
      rfl
    obtain ⟨-, rfl⟩ := Prod.mk.inj (Option.some.inj (hselect.symm.trans hrun))
    exact h.quiet s _ rfl rfl rfl

variable [IsPreorder Machine R]

theorem report (calls : List PrintCall) (a : α) :
    Relates R (do EtyOS.console calls; return a) := (h.console calls).bind fun _ => Relates.pure a

theorem ataReadSectorDisk (c d : Fin 2) (lba : UInt32) (buffer : ℕ) (m : Memory) :
    Relates R (ataReadSectorDisk c d lba buffer m) :=
  (h.readSector c d lba buffer m).bind fun _ => (h.record _).bind fun _ => Relates.pure _

theorem ataWriteSectorDisk (c d : Fin 2) (lba : UInt32) (buffer : ℕ) (m : Memory) :
    Relates R (ataWriteSectorDisk c d lba buffer m) :=
  (h.writeSector c d lba buffer m).bind fun _ => (h.record _).bind fun _ => Relates.pure _

theorem formatFat32 (c d : Fin 2) (startLba n : UInt32) :
    Relates R (formatFat32 c d startLba n) :=
  relates_andThen (h.ataWriteSectorDisk _ _ _ _ _) <|
    relates_andThen (h.ataWriteSectorDisk _ _ _ _ _) <|
      relates_andThen (h.ataWriteSectorDisk _ _ _ _ _) (Relates.pure _)

end Machine.Closed

/-! ### `format_ext4` -/

namespace Machine.ClosedWithPool

variable {R : Machine → Machine → Prop} (h : ClosedWithPool R)

include h

theorem bufferWrite (a n : ℕ) (f : Memory → Memory) : Relates R (bufferWrite a n f) :=
  Relates.modify fun s => h.pool s _ rfl

theorem kernelAllocate (size : UInt64) : Relates R (kernelAllocate size) := by
  intro s a s' hrun
  obtain ⟨r, -, hr⟩ := Option.map_eq_some_iff.mp hrun
  obtain ⟨-, rfl⟩ := Prod.mk.inj hr
  exact h.pool s _ rfl

theorem kernelFree (ptr : ℕ) : Relates R (kernelFree ptr) := by
  intro s a s' hrun
  obtain ⟨r, -, hr⟩ := Option.map_eq_some_iff.mp hrun
  obtain ⟨-, rfl⟩ := Prod.mk.inj hr
  exact h.pool s _ rfl

variable [IsPreorder Machine R]

theorem storeFields {F : Type} [DecidableEq F] (L : Layout F) (a : ℕ) (fields : List (F × ℕ)) :
    Relates R (storeFields L a fields) := by
  induction fields with
  | nil => exact Relates.pure ()
  | cons field rest ih => exact (h.bufferWrite _ _ _).bind fun _ => ih

theorem initSuperblock (n : UInt32) (sb : ℕ) : Relates R (initSuperblock n sb) :=
  (h.bufferWrite _ _ _).bind fun _ => (h.storeFields _ _ _).bind fun _ =>
    (h.bufferWrite _ _ _).bind fun _ => h.bufferWrite _ _ _

theorem failAndFree (diskBuffer : ℕ) (error : List PrintCall) :
    Relates R (failAndFree diskBuffer error) :=
  (h.console error).bind fun _ => (h.kernelFree _).bind fun _ => Relates.pure _

theorem writeOrFree (j : Ext4Job) (lba : UInt32) (error : List PrintCall) :
    Relates R (j.writeOrFree lba error) := by
  refine (relates_bufferRead _).bind fun m => (h.ataWriteSectorDisk _ _ _ _ _).bind fun rc => ?_
  exact Relates.ite (fun _ => h.failAndFree _ error) fun _ => Relates.pure _

theorem formatGroup (j : Ext4Job) (group : UInt32) : Relates R (j.formatGroup group) := by
  have hdescriptor : Relates R (j.writeDescriptor group) := by
    refine Relates.bind ?_ fun _ => h.writeOrFree j _ _
    exact (h.bufferWrite _ _ _).bind fun _ => (h.storeFields _ _ _).bind fun _ =>
      (relates_bufferRead _).bind fun _ => h.storeFields _ _ _
  have hblocks : Relates R (j.writeBlockBitmap group) :=
    (h.bufferWrite _ _ _).bind fun _ => (h.bufferWrite _ _ _).bind fun _ => h.writeOrFree j _ _
  have hinodes : Relates R (j.writeInodeBitmap group) :=
    (h.bufferWrite _ _ _).bind fun _ => h.writeOrFree j _ _
  refine Relates.bind (Relates.ite (fun _ => h.console _) fun _ => Relates.pure ()) fun _ => ?_
  exact relates_andThen hdescriptor (relates_andThen hblocks hinodes)

theorem formatGroups (j : Ext4Job) (count : ℕ) (group : UInt32) :
    Relates R (j.formatGroups count group) := by
  induction count generalizing group with
  | zero => exact Relates.pure 0
  | succ count ih => exact relates_andThen (h.formatGroup j group) (ih (group + 1))

theorem formatVolume (j : Ext4Job) : Relates R (formatVolume j) := by
  refine (h.console _).bind fun _ => relates_andThen (h.writeOrFree j _ _) ?_
  refine (relates_bufferRead _).bind fun firstBlock => relates_andThen (h.formatGroups _ _ _) ?_
  exact (h.console _).bind fun _ => (h.kernelFree _).bind fun _ => Relates.pure _

theorem formatInBuffer (c d : Fin 2) (startLba n : UInt32) (diskBuffer : ℕ) :
    Relates R (formatInBuffer c d startLba n diskBuffer) := by
  refine (h.bufferWrite _ _ _).bind fun _ => (relates_bufferRead _).bind fun m => ?_
  refine (h.ataReadSectorDisk _ _ _ _ _).bind fun r => ?_
  refine Relates.bind (Relates.modify fun s => h.pool s _ rfl) fun _ => ?_
  refine Relates.ite (fun _ => h.failAndFree _ _) fun _ => ?_
  refine (h.initSuperblock _ _).bind fun _ => (relates_bufferRead _).bind fun perGroup => ?_
  refine Relates.ite (fun _ => h.failAndFree _ _) fun _ => (relates_bufferRead _).bind fun total => ?_
  exact Relates.ite (fun _ => h.failAndFree _ _) fun _ => h.formatVolume _

theorem formatExt4 (c d : Fin 2) (startLba n : UInt32) :
    Relates R (formatExt4 c d startLba n) := by
  refine (h.console _).bind fun _ => Relates.ite (fun _ => h.report _ _) fun _ => ?_
  refine (h.kernelAllocate _).bind fun diskBuffer => ?_
  exact Relates.ite (fun _ => h.report _ _) fun _ => h.formatInBuffer _ _ _ _ _

end Machine.ClosedWithPool

/-! ### The commands -/

/-- The command may come to `format_ext4`. -/
def Command.CallsExt4 : Command → Prop
  | .createPartitionMb _ fs => fs = .ext4
  | .formatDisk fs => fs = .ext4
  | _ => False

namespace Machine.Closed

variable {R : Machine → Machine → Prop} [IsPreorder Machine R] (h : Closed R)

include h

theorem scanSlots {r : CreateRoutine} (hformat : ∀ c d a n, Relates R (r.format c d a n))
    (c d : Fin 2) (startLba n : UInt32) (mbr : Memory) (count i : ℕ) :
    Relates R (r.scanSlots c d startLba n mbr count i) := by
  have hfill (i : ℕ) : Relates R (r.fillSlot c d startLba n mbr i) := by
    refine (h.console _).bind fun _ => (h.ataWriteSectorDisk _ _ _ _ _).bind fun rc => ?_
    refine Relates.ite (fun _ => h.console _) fun _ => (hformat _ _ _ _).bind fun rc => ?_
    exact (h.record _).bind fun _ => Relates.ite (fun _ => h.console _) fun _ => h.console _
  induction count generalizing i with
  | zero => exact h.console _
  | succ count ih => exact Relates.ite (fun _ => hfill i) fun _ => ih (i + 1)

theorem create {r : CreateRoutine} (hformat : ∀ c d a n, Relates R (r.format c d a n))
    (c d : Fin 2) (startLba n : UInt32) : Relates R (r.create c d startLba n) := by
  refine (h.console _).bind fun _ => (h.ataReadSectorDisk _ _ _ _ _).bind fun a => ?_
  refine Relates.ite (fun _ => h.console _) fun _ => ?_
  exact (h.console _).bind fun _ => h.scanSlots hformat _ _ _ _ _ _ _

theorem createByType {fs : FileSystemType}
    (hext4 : fs = .ext4 → ∀ c d a n, Relates R (formatExt4 c d a n)) (remark : String)
    (disk : DiskInfo) (startLba n : UInt32) :
    Relates R (createByType fs remark disk startLba n) := by
  cases fs with
  | fat32 => exact (h.console _).bind fun _ => h.create h.formatFat32 _ _ _ _
  | ext4 => exact h.create (hext4 rfl) _ _ _ _

theorem initDisktool : Relates R initDisktool := by
  have hscan (c d : Fin 2) : Relates R (scanDrive c d) := by
    refine (h.identifyDrive c d).bind fun answer => ?_
    cases answer with
    | none => exact Relates.pure ()
    | some buffer => exact h.modify (fun _ => rfl) (fun _ => rfl) fun _ => rfl
  refine Relates.bind (h.modify (fun _ => rfl) (fun _ => rfl) fun _ => rfl) fun _ => ?_
  refine (h.console _).bind fun _ => (hscan _ _).bind fun _ => (hscan _ _).bind fun _ => ?_
  exact (hscan _ _).bind fun _ => (hscan _ _).bind fun _ => Relates.get.bind fun s => h.console _

theorem deletePartition (i : ℤ) : Relates R (deletePartition i) := by
  refine Relates.get.bind fun s => Relates.ite (fun _ => h.report _ _) fun _ => ?_
  refine Relates.ite (fun _ => h.report _ _) fun _ => (h.ataReadSectorDisk _ _ _ _ _).bind fun a => ?_
  refine Relates.ite (fun _ => h.report _ _) fun _ => (Relates.pure _).bind fun type => ?_
  refine Relates.ite (fun _ => h.report _ _) fun _ => ?_
  refine (h.ataWriteSectorDisk _ _ _ _ _).bind fun rc => ?_
  exact Relates.ite (fun _ => h.report _ _) fun _ => h.report _ _

theorem displayPartitions : Relates R displayPartitions := by
  have hname (lba : UInt32) : Relates R (displayVolumeName lba) := by
    rw [displayVolumeName, ataReadSector_eq_disk]
    refine (h.ataReadSectorDisk _ _ _ _ _).bind fun r => ?_
    refine Relates.ite (fun _ => ?_) fun _ => Relates.pure ()
    exact Relates.ite (fun _ => h.console _) fun _ => Relates.pure ()
  have hentry (mbr : Memory) (i : ℕ) : Relates R (displayEntry mbr i) := by
    refine Relates.get.bind fun s => (h.console _).bind fun _ => ?_
    refine Relates.bind (Relates.ite (fun _ => hname _) fun _ => Relates.pure ()) fun _ => ?_
    exact (h.console _).bind fun _ => h.console _
  have hentries (mbr : Memory) (count i : ℕ) : Relates R (displayEntries mbr count i) := by
    induction count generalizing i with
    | zero => exact Relates.pure ()
    | succ count ih =>
      exact Relates.ite (fun _ => (hentry mbr i).bind fun _ => ih (i + 1)) fun _ => ih (i + 1)
  rw [EtyOS.displayPartitions, ataReadSector_eq_disk]
  refine (h.ataReadSectorDisk _ _ _ _ _).bind fun r => Relates.ite (fun _ => h.console _) fun _ => ?_
  exact (h.console _).bind fun _ => hentries _ _ _

theorem displayAvailableDisks : Relates R displayAvailableDisks := by
  have hdrive (c d : Fin 2) (n : ℕ) : Relates R (displayDrive c d n) := by
    refine (h.identifyDrive c d).bind fun answer => ?_
    cases answer with
    | none => exact Relates.pure n
    | some buffer => exact (h.console _).bind fun _ => Relates.pure _
  refine (h.console _).bind fun _ => (hdrive _ _ _).bind fun _ => (hdrive _ _ _).bind fun _ => ?_
  refine (hdrive _ _ _).bind fun _ => (hdrive _ _ _).bind fun _ => ?_
  exact Relates.ite (fun _ => h.console _) fun _ => Relates.pure ()

theorem exec {k : Command} (hext4 : k.CallsExt4 → ∀ c d a n, Relates R (formatExt4 c d a n)) :
    Relates R k.exec := by
  cases k with
  | listDisks =>
    refine Relates.bind ?_ fun _ => Relates.pure 0
    exact (h.console _).bind fun _ => Relates.get.bind fun s => h.console _
  | update => exact h.initDisktool.bind fun _ => Relates.pure 0
  | formatDisk fs =>
    refine Relates.get.bind fun s => Relates.ite (fun _ => h.report _ _) fun _ => ?_
    refine Relates.ite (fun _ => h.report _ _) fun _ => ?_
    exact (h.createByType hext4 _ _ _ _).bind fun _ => Relates.pure _
  | selectDisk i => exact h.selectDisk i
  | createPartitionMb m fs =>
    refine Relates.get.bind fun s => Relates.ite (fun _ => h.report _ _) fun _ => ?_
    refine Relates.ite (fun _ => h.report _ _) fun _ => ?_
    exact (h.createByType hext4 _ _ _ _).bind fun _ => h.initDisktool.bind fun _ => Relates.pure _
  | deletePartition i => exact h.deletePartition i
  | displayPartitionInfo =>
    refine Relates.bind ?_ fun _ => Relates.pure 0
    refine Relates.get.bind fun s => Relates.ite (fun _ => h.console _) fun _ => ?_
    exact (h.console _).bind fun _ => h.displayPartitions

theorem disktoolLine (color : UInt8) {line : CString}
    (hext4 : ∀ k, line.command = some k → k.CallsExt4 → ∀ c d a n, Relates R (formatExt4 c d a n)) :
    Relates R (disktoolLine color line) := by
  rw [disktoolLine_eq]
  cases hcommand : line.command with
  | some k => exact (h.exec (hext4 k hcommand)).bind fun rc => h.report _ true
  | none => exact Relates.ite (fun _ => Relates.pure false) fun _ => h.report _ true

theorem checkFilesystem (frame : LocalArray) :
    Relates R ((checkFilesystem frame).run []) := by
  intro s r s' hrun
  obtain ⟨reads, hcheck⟩ := checkFilesystem_run frame s
  obtain ⟨-, rfl⟩ := Prod.mk.inj (Option.some.inj (hcheck.symm.trans hrun))
  have hload := run_readSector 0 0 0 0 uninitialised s
  by_cases habort : s.bus.next.abort = true
  · rw [if_pos habort] at hload
    have hread := h.ataReadSectorDisk 0 0 0 0 uninitialised s _ _ hload
    exact trans_of R hread (h.quiet _ ((s.read 0 0 0).print (s.checkCalls frame)) rfl rfl rfl)
  · rw [if_neg habort] at hload
    have hread := h.ataReadSectorDisk 0 0 0 0 uninitialised s _ _ hload
    exact trans_of R hread (h.quiet _ ((s.read 0 0 0).print (s.checkCalls frame)) rfl rfl rfl)

end Machine.Closed

/-! ### Turns -/

/-- The machines of two states of `kernel_main` are related. -/
def MainState.OnMachine (R : Machine → Machine → Prop) (t t' : MainState) : Prop :=
  R t.machine t'.machine

instance (R : Machine → Machine → Prop) [IsPreorder Machine R] :
    IsPreorder MainState (MainState.OnMachine R) where
  refl t := refl_of R t.machine
  trans _ _ _ h h' := trans_of R h h'

namespace Machine.Closed

open Main MainState

variable {α : Type} {R : Machine → Machine → Prop} [IsPreorder Machine R] (h : Closed R)

include h

theorem mainExec {x : Kernel α} (hx : Relates R x) : Relates (OnMachine R) (Main.exec x) := by
  intro t a t' hrun
  obtain ⟨r, hfirst, hr⟩ := Option.map_eq_some_iff.mp hrun
  obtain ⟨-, rfl⟩ := Prod.mk.inj hr
  exact trans_of R (h.quiet t.machine { t.machine with printed := [] } rfl rfl rfl)
    (hx _ _ _ hfirst)

theorem kernelLine (frame : MainState → LocalArray) (line : CString) :
    Relates (OnMachine R) (kernelLine frame line) := by
  have hsame {f : MainState → MainState} (hf : ∀ t, (f t).machine = t.machine) :
      Relates (OnMachine R) (MonadState.modifyGet fun t => ((), f t) : Main Unit) :=
    Relates.modify fun t => by
      change R t.machine (f t).machine
      rw [hf]
      exact refl_of R t.machine
  have hclear : Relates (OnMachine R) printClear := hsame fun _ => rfl
  have hprint (calls : List PrintCall) : Relates (OnMachine R) (Main.exec (EtyOS.console calls)) :=
    h.mainExec (h.console calls)
  have hsetcolor : Relates (OnMachine R) (setcolor line.bytes) := by
    rw [setcolor]
    refine Relates.bind (hsame fun _ => rfl) fun _ => Relates.ite (fun _ => ?_) fun _ => ?_
    · exact (hprint _).bind fun _ => hclear.bind fun _ => (hprint _).bind fun _ =>
        hclear.bind fun _ => (hprint _).bind fun _ => hprint _
    · exact (hprint _).bind fun _ => hprint _
  refine Relates.ite (fun _ => Relates.pure ()) fun _ => Relates.ite (fun _ => hprint _) fun _ => ?_
  refine Relates.ite (fun _ => (hprint _).bind fun _ => hsame fun _ => rfl) fun _ => ?_
  refine Relates.ite (fun _ => hclear) fun _ => ?_
  refine Relates.ite (fun _ => h.mainExec h.displayAvailableDisks) fun _ => ?_
  refine Relates.ite (fun _ => hprint _) fun _ => Relates.ite (fun _ => ?_) fun _ => ?_
  · exact Relates.get.bind fun t => (h.mainExec (h.checkFilesystem (frame t))).bind fun _ =>
      Relates.pure ()
  refine Relates.ite (fun _ => hprint _) fun _ => ?_
  refine Relates.ite (fun _ => h.mainExec h.displayPartitions) fun _ => ?_
  exact Relates.ite (fun _ => hsetcolor) fun _ => hprint _

/-- A turn, whoever reads the line; `format_ext4` is called in the disk tool alone. -/
theorem turn {frame : MainState → LocalArray} {line : CString} {t t' : MainState}
    (hrun : (turn frame line).run t = some ((), t'))
    (hext4 : t.inDisktool = true → ∀ k, line.command = some k → k.CallsExt4 →
      ∀ c d a n, Relates R (formatExt4 c d a n)) : R t.machine t'.machine := by
  have hnext : Relates (OnMachine R) nextPrompt :=
    Relates.get.bind fun t => h.mainExec (h.console _)
  have hget : (get : Main MainState).run (t.show [.newline]) =
      some (t.show [.newline], t.show [.newline]) := rfl
  have hreader : (t.show [.newline]).inDisktool = t.inDisktool := rfl
  have hcolor : (t.show [.newline]).color = t.color := rfl
  rw [Main.turn, Main.run_bind (run_exec_console t [.newline]), Main.run_bind hget, hreader,
    hcolor] at hrun
  have hshown : R t.machine (t.show [.newline]).machine := h.quiet _ _ rfl rfl rfl
  refine trans_of R hshown ?_
  cases hwho : t.inDisktool with
  | true =>
    rw [hwho, if_pos rfl] at hrun
    have hline := h.disktoolLine (colorByte t.color) (hext4 hwho)
    refine Relates.bind (h.mainExec hline) (fun goOn => ?_) _ _ _ hrun
    refine Relates.ite (fun _ => hnext) fun _ => Relates.bind ?_ fun _ => hnext
    exact Relates.modify fun t => refl_of R t.machine
  | false =>
    rw [hwho, if_neg Bool.false_ne_true] at hrun
    exact Relates.bind (h.kernelLine frame line) (fun _ => hnext) _ _ _ hrun

/-- `kernel_main` up to its first prompt, once the pool has been set up. -/
theorem boot {m : Machine} {t : MainState} (hrun : Main.boot.run (.start m) = some ((), t)) :
    R (m.setMemory (memoryAllocatorInit m.poolBase m.memory)) t.machine := by
  let t₁ : MainState :=
    { MainState.start m with
      machine := { m with printed := [], memory := memoryAllocatorInit m.poolBase m.memory }
      output := .clear :: banner.map .call }
  have hstart : Main.boot.run (.start m) = (do
      Main.exec EtyOS.initDisktool
      setColor 0
      Main.exec (EtyOS.console [.setColor printColorWhite (colorByte 0)])
      nextPrompt : Main Unit).run t₁ := rfl
  have hnext : Relates (OnMachine R) nextPrompt :=
    Relates.get.bind fun t => h.mainExec (h.console _)
  have hcolor : Relates (OnMachine R) (setColor 0) := Relates.modify fun t => refl_of R t.machine
  rw [hstart] at hrun
  have hrest := Relates.bind (h.mainExec h.initDisktool) (fun _ => hcolor.bind fun _ =>
    (h.mainExec (h.console [.setColor printColorWhite (colorByte 0)])).bind fun _ => hnext) _ _ _ hrun
  have hset := h.quiet (m.setMemory (memoryAllocatorInit m.poolBase m.memory)) t₁.machine rfl rfl rfl
  exact trans_of R hset hrest

end Machine.Closed

end EtyOS
