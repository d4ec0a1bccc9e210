import EtyOS.Kernel.Output
import EtyOS.Disktool.Shell

/-!
# The colours of the disk tool

No disk function changes the colours. The shell of the disk tool does so for its
prompt and in its help, always with the background that it was started with.
-/

namespace EtyOS

open Library

abbrev KeepsColors {α : Type} (x : Kernel α) : Prop := Prints PrintCall.Colorless x

section Rules

variable {α : Type} {P : PrintCall → Prop} {x y : Kernel ℤ}

/-- A message before the value that is returned. -/
theorem prints_report {calls : List PrintCall} (h : ∀ c ∈ calls, P c) (a : α) :
    Prints P (do console calls; return a) := (prints_console h).bind fun _ => Relates.pure a

/-- A step that may fail before the rest. -/
theorem prints_andThen (hx : Prints P x) (hy : Prints P y) :
    Prints P (do let rc ← x; if rc ≠ 0 then return -1 else y) :=
  hx.bind fun _ => Relates.ite (fun _ => Relates.pure _) fun _ => hy

end Rules

section Formatters

theorem formatFat32_keepsColors (c d : Fin 2) (startLba n : UInt32) :
    KeepsColors (formatFat32 c d startLba n) := by
  refine prints_andThen (prints_writeSector _ _ _ _ _)
    (prints_andThen (prints_writeSector _ _ _ _ _) ?_)
  exact prints_andThen (prints_writeSector _ _ _ _ _) (Relates.pure _)

theorem storeFields_keepsColors {F : Type} [DecidableEq F] (L : Layout F) (a : ℕ)
    (fields : List (F × ℕ)) : KeepsColors (storeFields L a fields) := by
  induction fields with
  | nil => exact Relates.pure ()
  | cons field rest ih => exact (prints_bufferWrite _ _ _).bind fun _ => ih

theorem initSuperblock_keepsColors (n : UInt32) (sb : ℕ) : KeepsColors (initSuperblock n sb) :=
  (prints_bufferWrite _ _ _).bind fun _ => (storeFields_keepsColors _ _ _).bind fun _ =>
    (prints_bufferWrite _ _ _).bind fun _ => prints_bufferWrite _ _ _

namespace Ext4Job

variable (j : Ext4Job) (group : UInt32)

theorem writeOrFree_keepsColors (lba : UInt32) {error : List PrintCall}
    (herror : ∀ c ∈ error, c.Colorless) : KeepsColors (j.writeOrFree lba error) := by
  refine (prints_bufferRead _).bind fun m => (prints_writeSector _ _ _ _ _).bind fun rc => ?_
  refine Relates.ite (fun _ => ?_) fun _ => Relates.pure _
  exact (prints_console herror).bind fun _ => (prints_kernelFree _).bind fun _ => Relates.pure _

theorem fillDescriptor_keepsColors : KeepsColors (j.fillDescriptor group) :=
  (prints_bufferWrite _ _ _).bind fun _ => (storeFields_keepsColors _ _ _).bind fun _ =>
    (prints_bufferRead _).bind fun _ => storeFields_keepsColors _ _ _

theorem reportProgress_keepsColors : KeepsColors (j.reportProgress group) :=
  Relates.ite (fun _ => prints_console (by simp [PrintCall.Colorless])) fun _ => Relates.pure ()

theorem writeDescriptor_keepsColors : KeepsColors (j.writeDescriptor group) :=
  (j.fillDescriptor_keepsColors group).bind fun _ =>
    j.writeOrFree_keepsColors _ (by simp [PrintCall.Colorless])

theorem writeBlockBitmap_keepsColors : KeepsColors (j.writeBlockBitmap group) :=
  (prints_bufferWrite _ _ _).bind fun _ => (prints_bufferWrite _ _ _).bind fun _ =>
    j.writeOrFree_keepsColors _ (by simp [PrintCall.Colorless])

theorem writeInodeBitmap_keepsColors : KeepsColors (j.writeInodeBitmap group) :=
  (prints_bufferWrite _ _ _).bind fun _ =>
    j.writeOrFree_keepsColors _ (by simp [PrintCall.Colorless])

theorem formatGroup_keepsColors : KeepsColors (j.formatGroup group) :=
  (j.reportProgress_keepsColors group).bind fun _ =>
    prints_andThen (j.writeDescriptor_keepsColors group)
      (prints_andThen (j.writeBlockBitmap_keepsColors group) (j.writeInodeBitmap_keepsColors group))

theorem formatGroups_keepsColors (count : ℕ) : KeepsColors (j.formatGroups count group) := by
  induction count generalizing group with
  | zero => exact Relates.pure 0
  | succ count ih => exact prints_andThen (j.formatGroup_keepsColors group) (ih (group + 1))

end Ext4Job

theorem failAndFree_keepsColors (diskBuffer : ℕ) {error : List PrintCall}
    (herror : ∀ c ∈ error, c.Colorless) : KeepsColors (failAndFree diskBuffer error) :=
  (prints_console herror).bind fun _ => (prints_kernelFree _).bind fun _ => Relates.pure _

theorem formatBlockGroups_keepsColors (j : Ext4Job) : KeepsColors (formatBlockGroups j) := by
  refine (prints_bufferRead _).bind fun firstBlock => ?_
  refine prints_andThen (Ext4Job.formatGroups_keepsColors _ _ _) ?_
  exact (prints_console (by simp [PrintCall.Colorless])).bind fun _ =>
    (prints_kernelFree _).bind fun _ => Relates.pure _

theorem formatVolume_keepsColors (j : Ext4Job) : KeepsColors (formatVolume j) :=
  (prints_console (by simp [PrintCall.Colorless])).bind fun _ =>
    prints_andThen (j.writeOrFree_keepsColors _ (by simp [PrintCall.Colorless]))
      (formatBlockGroups_keepsColors j)

theorem formatFromSuperblock_keepsColors (c d : Fin 2) (startLba n : UInt32) (diskBuffer : ℕ) :
    KeepsColors (formatFromSuperblock c d startLba n diskBuffer) := by
  refine (initSuperblock_keepsColors _ _).bind fun _ => (prints_bufferRead _).bind fun perGroup => ?_
  refine Relates.ite (fun _ => failAndFree_keepsColors _ (by simp [PrintCall.Colorless])) fun _ => ?_
  refine (prints_bufferRead _).bind fun total => ?_
  exact Relates.ite (fun _ => failAndFree_keepsColors _ (by simp [PrintCall.Colorless])) fun _ =>
    formatVolume_keepsColors _

theorem formatInBuffer_keepsColors (c d : Fin 2) (startLba n : UInt32) (diskBuffer : ℕ) :
    KeepsColors (formatInBuffer c d startLba n diskBuffer) := by
  refine (prints_bufferWrite _ _ _).bind fun _ => (prints_bufferRead _).bind fun m => ?_
  refine (prints_readSector _ _ _ _ _).bind fun r => ?_
  refine Relates.bind (prints_silent fun _ => rfl) fun _ => ?_
  exact Relates.ite (fun _ => failAndFree_keepsColors _ (by simp [PrintCall.Colorless])) fun _ =>
    formatFromSuperblock_keepsColors _ _ _ _ _

theorem formatExt4_keepsColors (c d : Fin 2) (startLba n : UInt32) :
    KeepsColors (formatExt4 c d startLba n) := by
  refine (prints_console (by simp [PrintCall.Colorless])).bind fun _ => ?_
  refine Relates.ite (fun _ => prints_report (by simp [PrintCall.Colorless]) _) fun _ => ?_
  refine (prints_kernelAllocate _).bind fun diskBuffer => ?_
  exact Relates.ite (fun _ => prints_report (by simp [PrintCall.Colorless]) _) fun _ =>
    formatInBuffer_keepsColors _ _ _ _ _

end Formatters

section Creation

variable {r : CreateRoutine} (c d : Fin 2) (startLba n : UInt32)

/-- The texts of a routine and its formatter leave the colours alone. -/
structure CreateRoutine.Plain (r : CreateRoutine) : Prop where
  format : ∀ c d startLba n, KeepsColors (r.format c d startLba n)
  texts : ∀ call ∈ r.beforeRead ++ r.beforeScan ++ r.beforeWrite ++ r.formatError ++ r.success,
    call.Colorless

theorem ext4Routine_plain : ext4Routine.Plain where
  format := formatExt4_keepsColors
  texts := by simp [ext4Routine, PrintCall.Colorless]

theorem fat32Routine_plain : fat32Routine.Plain where
  format := formatFat32_keepsColors
  texts := by simp [fat32Routine, PrintCall.Colorless]

namespace CreateRoutine.Plain

theorem fillSlot (h : r.Plain) (mbr : Memory) (i : ℕ) :
    KeepsColors (r.fillSlot c d startLba n mbr i) := by
  have htexts := h.texts
  simp only [List.mem_append, or_imp, forall_and] at htexts
  refine (prints_console htexts.1.1.2).bind fun _ => (prints_writeSector _ _ _ _ _).bind fun rc => ?_
  refine Relates.ite (fun _ => prints_console (by simp [PrintCall.Colorless])) fun _ => ?_
  refine (h.format _ _ _ _).bind fun rc => (prints_record _).bind fun _ => ?_
  exact Relates.ite (fun _ => prints_console htexts.1.2) fun _ => prints_console htexts.2

theorem scanSlots (h : r.Plain) (mbr : Memory) (count i : ℕ) :
    KeepsColors (r.scanSlots c d startLba n mbr count i) := by
  induction count generalizing i with
  | zero => exact prints_console (by simp [PrintCall.Colorless])
  | succ count ih => exact Relates.ite (fun _ => h.fillSlot _ _ _ _ _ _) fun _ => ih (i + 1)

theorem create (h : r.Plain) : KeepsColors (r.create c d startLba n) := by
  have htexts := h.texts
  simp only [List.mem_append, or_imp, forall_and] at htexts
  refine (prints_console htexts.1.1.1.1).bind fun _ => (prints_readSector _ _ _ _ _).bind fun a => ?_
  refine Relates.ite (fun _ => prints_console (by simp [PrintCall.Colorless])) fun _ => ?_
  exact (prints_console htexts.1.1.1.2).bind fun _ => h.scanSlots _ _ _ _ _ _ _

end CreateRoutine.Plain

theorem createByType_keepsColors (fs : FileSystemType) (remark : String) (disk : DiskInfo) :
    KeepsColors (createByType fs remark disk startLba n) := by
  cases fs with
  | fat32 =>
    exact (prints_console (by simp [PrintCall.Colorless])).bind fun _ =>
      fat32Routine_plain.create _ _ _ _
  | ext4 => exact ext4Routine_plain.create _ _ _ _

end Creation

section Handlers

theorem scanDrive_keepsColors (c d : Fin 2) : KeepsColors (scanDrive c d) := by
  refine (prints_driver _ fun _ => trivial).bind fun answer => ?_
  cases answer with
  | none => exact Relates.pure ()
  | some buffer => exact prints_silent fun _ => rfl

theorem initDisktool_keepsColors : KeepsColors initDisktool := by
  refine Relates.bind (prints_silent fun _ => rfl) fun _ => ?_
  refine (prints_console (by simp [PrintCall.Colorless])).bind fun _ => ?_
  refine (scanDrive_keepsColors _ _).bind fun _ => (scanDrive_keepsColors _ _).bind fun _ => ?_
  refine (scanDrive_keepsColors _ _).bind fun _ => (scanDrive_keepsColors _ _).bind fun _ => ?_
  exact Relates.get.bind fun s => prints_console (by simp [PrintCall.Colorless])

theorem selectDisk_keepsColors (i : ℤ) : KeepsColors (selectDisk i) := by
  intro s rc s' hrun
  by_cases hindex : i < 0 ∨ i ≥ s.numDisks
  · have hreject : (selectDisk i).run s =
        some (-1, s.print [.str "Invalid disk index", .newline]) := by
      simp [selectDisk, hindex]
    obtain ⟨-, rfl⟩ := Prod.mk.inj (Option.some.inj (hreject.symm.trans hrun))
    exact ⟨_, rfl, by simp [PrintCall.Colorless]⟩
  · have hselect : (selectDisk i).run s =
        some (0, { s with currentDisk := i }.print [.str "Selected disk: ",
          .str (cString (s.availableDisks i.toNat).model), .newline]) := by
      simp only [selectDisk, run_bind_of_run _ (run_get s), if_neg hindex]
      rfl
    obtain ⟨-, rfl⟩ := Prod.mk.inj (Option.some.inj (hselect.symm.trans hrun))
    exact ⟨_, rfl, by simp [PrintCall.Colorless]⟩

theorem createPartitionMb_keepsColors (sizeMb : UInt32) (fs : FileSystemType) :
    KeepsColors (createPartitionMb sizeMb fs) := by
  refine Relates.get.bind fun s => ?_
  refine Relates.ite (fun _ => prints_report (by simp [PrintCall.Colorless]) _) fun _ => ?_
  refine Relates.ite (fun _ => prints_report (by simp [PrintCall.Colorless]) _) fun _ => ?_
  exact (createByType_keepsColors _ _ _ _ _).bind fun _ =>
    initDisktool_keepsColors.bind fun _ => Relates.pure _

theorem formatDisk_keepsColors (fs : FileSystemType) : KeepsColors (formatDisk fs) := by
  refine Relates.get.bind fun s => ?_
  refine Relates.ite (fun _ => prints_report (by simp [PrintCall.Colorless]) _) fun _ => ?_
  refine Relates.ite (fun _ => prints_report (by simp [PrintCall.Colorless]) _) fun _ => ?_
  exact (createByType_keepsColors _ _ _ _ _).bind fun _ => Relates.pure _

theorem deletePartition_keepsColors (i : ℤ) : KeepsColors (deletePartition i) := by
  refine Relates.get.bind fun s => ?_
  refine Relates.ite (fun _ => prints_report (by simp [PrintCall.Colorless]) _) fun _ => ?_
  refine Relates.ite (fun _ => prints_report (by simp [PrintCall.Colorless]) _) fun _ => ?_
  refine (prints_readSector _ _ _ _ _).bind fun a => ?_
  refine Relates.ite (fun _ => prints_report (by simp [PrintCall.Colorless]) _) fun _ => ?_
  refine (Relates.pure _).bind fun type => ?_
  refine Relates.ite (fun _ => prints_report (by simp [PrintCall.Colorless]) _) fun _ => ?_
  refine (prints_writeSector _ _ _ _ _).bind fun rc => ?_
  exact Relates.ite (fun _ => prints_report (by simp [PrintCall.Colorless]) _) fun _ =>
    prints_report (by simp [PrintCall.Colorless]) _

theorem typeCalls_colorless (code : UInt8) (stackTail : String) :
    ∀ c ∈ typeCalls code stackTail, c.Colorless := by
  unfold typeCalls
  cases typeName code <;> simp [PrintCall.Colorless]

theorem volumeNameCalls_colorless (sb : Memory) : ∀ c ∈ volumeNameCalls sb, c.Colorless := by
  unfold volumeNameCalls
  dsimp only
  split
  · intro c hc
    simp only [List.mem_append, List.mem_singleton, List.mem_map] at hc
    rcases hc with (rfl | ⟨_, -, rfl⟩) | rfl <;> trivial
  · simp

theorem displayVolumeName_keepsColors (lba : UInt32) : KeepsColors (displayVolumeName lba) := by
  rw [displayVolumeName, ataReadSector_eq_disk]
  refine (prints_readSector _ _ _ _ _).bind fun r => ?_
  refine Relates.ite (fun _ => ?_) fun _ => Relates.pure ()
  exact Relates.ite (fun _ => prints_console (volumeNameCalls_colorless _)) fun _ => Relates.pure ()

theorem entryLine_colorless (mbr : Memory) (i : ℕ) : ∀ c ∈ entryLine mbr i, c.Colorless := by
  simp [entryLine, PrintCall.Colorless]

theorem displayEntry_keepsColors (mbr : Memory) (i : ℕ) : KeepsColors (displayEntry mbr i) := by
  refine Relates.get.bind fun s => (prints_console ?_).bind fun _ => ?_
  · intro c hc
    rcases List.mem_append.mp hc with hline | htype
    · exact entryLine_colorless mbr i c hline
    · exact typeCalls_colorless _ _ c htype
  · refine Relates.bind (Relates.ite (fun _ => displayVolumeName_keepsColors _)
      fun _ => Relates.pure ()) fun _ => ?_
    refine (prints_console ?_).bind fun _ => prints_console (by simp [PrintCall.Colorless])
    split <;> simp [PrintCall.Colorless]

theorem displayEntries_keepsColors (mbr : Memory) (count i : ℕ) :
    KeepsColors (displayEntries mbr count i) := by
  induction count generalizing i with
  | zero => exact Relates.pure ()
  | succ count ih =>
    exact Relates.ite (fun _ => (displayEntry_keepsColors mbr i).bind fun _ => ih (i + 1))
      fun _ => ih (i + 1)

theorem displayPartitions_keepsColors : KeepsColors displayPartitions := by
  rw [displayPartitions, ataReadSector_eq_disk]
  refine (prints_readSector _ _ _ _ _).bind fun r => ?_
  refine Relates.ite (fun _ => prints_console (by simp [PrintCall.Colorless])) fun _ => ?_
  exact (prints_console (by simp [PrintCall.Colorless])).bind fun _ =>
    displayEntries_keepsColors _ _ _

theorem displayPartitionInfo_keepsColors : KeepsColors displayPartitionInfo := by
  refine Relates.get.bind fun s => ?_
  refine Relates.ite (fun _ => prints_console (by simp [PrintCall.Colorless])) fun _ => ?_
  exact (prints_console (by simp [PrintCall.Colorless])).bind fun _ =>
    displayPartitions_keepsColors

theorem listDiskLines_colorless (s : Machine) (count i : ℕ) :
    ∀ c ∈ listDiskLines s count i, c.Colorless := by
  induction count generalizing i with
  | zero => simp [listDiskLines]
  | succ count ih =>
    rw [listDiskLines, List.forall_mem_append]
    exact ⟨by simp [PrintCall.Colorless], ih (i + 1)⟩

theorem listDisks_keepsColors : KeepsColors listDisks :=
  (prints_console (by simp [PrintCall.Colorless])).bind fun _ =>
    Relates.get.bind fun s => prints_console (listDiskLines_colorless s _ _)

theorem Command.exec_keepsColors (k : Command) : KeepsColors k.exec := by
  cases k with
  | listDisks => exact listDisks_keepsColors.bind fun _ => Relates.pure 0
  | update => exact initDisktool_keepsColors.bind fun _ => Relates.pure 0
  | formatDisk fs => exact formatDisk_keepsColors fs
  | selectDisk i => exact selectDisk_keepsColors i
  | createPartitionMb m fs => exact createPartitionMb_keepsColors m fs
  | deletePartition i => exact deletePartition_keepsColors i
  | displayPartitionInfo => exact displayPartitionInfo_keepsColors.bind fun _ => Relates.pure 0

end Handlers

section Shell

/-- A change of the colours has this background, and a foreground of four bits. -/
def PrintCall.Paints (background : UInt8) : PrintCall → Prop
  | .setColor foreground b => foreground < 16 ∧ b = background
  | _ => True

theorem PrintCall.Colorless.paints {c : PrintCall} (h : c.Colorless) (background : UInt8) :
    c.Paints background := by
  cases c <;> trivial

theorem helpCalls_paint (color : UInt8) : ∀ c ∈ helpCalls color, c.Paints color := by
  simp [helpCalls, PrintCall.Paints, printColorLightGray, printColorWhite]

theorem KeepsColors.paints {α : Type} {x : Kernel α} (h : KeepsColors x) (background : UInt8) :
    Prints (PrintCall.Paints background) x :=
  h.mono fun _ _ ⟨calls, hcalls, hall⟩ =>
    ⟨calls, hcalls, fun c hc => (hall c hc).paints background⟩

/-- Only the help of the shell changes the colours, and it keeps the background. -/
theorem disktoolLine_paints (color : UInt8) (line : CString) :
    Prints (PrintCall.Paints color) (disktoolLine color line) := by
  rw [disktoolLine_eq]
  cases line.command with
  | some k =>
    refine Relates.bind (k.exec_keepsColors.paints color) fun rc => prints_report ?_ true
    cases k <;> simp only [Command.report] <;> first | split | skip
    all_goals simp [PrintCall.Paints]
  | none =>
    refine Relates.ite (fun _ => Relates.pure false) fun _ => prints_report ?_ true
    unfold CString.reply
    split
    · simp
    · split
      · exact helpCalls_paint color
      · simp [PrintCall.Paints]

end Shell

end EtyOS
