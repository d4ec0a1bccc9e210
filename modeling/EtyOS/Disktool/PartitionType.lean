import EtyOS.Disktool.PartitionIndex
import EtyOS.Partition.FatTables

/-!
# The type of a partition that is formatted again

`format_partition` leaves the entry as it is and calls the formatter. Sector 0
changes only if the formatter itself writes there, and what a formatter writes
is zero where the table would be.
-/

namespace EtyOS

open Library Memory

/-- The bytes of a partition table are 0. -/
def Memory.BlankTable (m : Memory) : Prop := ∀ b, 446 ≤ b → b < 510 → m b = 0

section Blank

variable (startLba totalSectors : UInt32)

theorem blankTable_superblock : Memory.BlankTable (superblockMemory totalSectors) :=
  fun _ hb _ => superblockMemory_high totalSectors hb

theorem blankTable_descriptor (g : Ext4Geometry) (group : UInt32) :
    Memory.BlankTable (g.descriptorMemory group) := by
  intro b hb _
  have hend : (0 : ℕ) + ext4GroupDesc.sizeof ≤ b := by
    rw [sizeof_ext4GroupDesc]
    omega
  rw [Ext4Geometry.descriptorMemory, ext4GroupDesc.setAll_frame _ _ (Or.inr hend),
    ext4GroupDesc.setAll_frame _ _ (Or.inr hend)]
  rfl

theorem blankTable_blockBitmap : Memory.BlankTable blockBitmapMemory :=
  fun _ hb _ => Function.update_of_ne (by omega) _ _

theorem blankTable_fatSector : Memory.BlankTable fatSectorMemory := by
  intro b hb _
  rw [fatSectorMemory, store_frame _ _ (by omega), store_frame _ _ (by omega),
    store_frame _ _ (by omega)]

/-- The boot code is left at 0. -/
theorem blankTable_bootSector : Memory.BlankTable (bootSectorMemory startLba totalSectors) := by
  intro b hb hlt
  have hlabel : fat32BootSector.offset .volumeLabel + volumeLabel.length ≤ 446 := by decide
  have htype : fat32BootSector.offset .fsType + fatFsType.length ≤ 446 := by decide
  have hname : fat32BootSector.offset .oemName + oemName.length ≤ 446 := by decide
  have hjump : fat32BootSector.offset .jumpBoot + [0xEB, 0x58, (0x90 : UInt8)].length ≤ 446 := by
    decide
  have hend : fat32BootSector.offset .bootSignature2 = 510 := by decide
  rw [bootSectorMemory, Layout.set, store_frame _ _ (by omega), write_frame _ _ (by omega),
    write_frame _ _ (by omega), fat32BootSector.setAll_apply_of_fields _ _ fun f hf => ?_,
    write_frame _ _ (by omega), write_frame _ _ (by omega)]
  have hlow : ∀ f, f = .bootCode ∨ f = .bootSignature2 ∨
      fat32BootSector.offset f + fat32BootSector.size f ≤ 446 := by
    intro f
    cases f <;> decide
  rcases hlow f with rfl | rfl | hlow
  · simp at hf
  · simp at hf
  · omega

/-- Such a sector has four empty entries. -/
theorem slotType_of_blankTable {m : Memory} (h : Memory.BlankTable m) (i : Fin 4) :
    (Sector.ofMemory m 0).slotType i = 0 := by
  have hi := i.isLt
  rw [slotType_eq_zero_iff, table_ofMemory]
  apply load_eq_zero
  intro b hb hb'
  have hsize : partitionEntry.size .type = 1 := by decide
  have hoffset : partitionEntry.offset .type = 4 := by decide
  rw [hsize] at hb'
  rw [hoffset] at hb hb'
  unfold entryAt partitionTableOffset at hb hb'
  exact h b (by omega) (by omega)

end Blank

namespace FileSystemType

variable (fs : FileSystemType) (startLba totalSectors : UInt32)

/-- What the formatter writes. -/
def plan : List (UInt32 × Sector) :=
  match fs with
  | .fat32 => fat32Plan startLba totalSectors
  | .ext4 => ext4Plan startLba totalSectors

/-- Where it writes, from the start of the partition. -/
def offsets (totalSectors : ℕ) : List ℕ :=
  match fs with
  | .fat32 => fat32Offsets totalSectors
  | .ext4 => ext4Offsets (groupsOf totalSectors)

theorem plan_sectors :
    (fs.plan startLba totalSectors).map (fun w => w.1.toNat) =
      (fs.offsets totalSectors.toNat).map fun o => (startLba.toNat + o) % 2 ^ 32 := by
  cases fs with
  | fat32 => exact fat32Plan_sectors startLba totalSectors
  | ext4 => exact ext4Plan_sectors startLba totalSectors

/-- Everything that a formatter writes is blank where a table would be. -/
theorem plan_slotType {w : UInt32 × Sector} (hw : w ∈ fs.plan startLba totalSectors) (i : Fin 4) :
    w.2.slotType i = 0 := by
  cases fs with
  | fat32 =>
    rcases fat32Plan_cases hw with ⟨-, hdata⟩ | ⟨-, hdata⟩
    · rw [hdata]
      exact slotType_of_blankTable (blankTable_bootSector startLba totalSectors) i
    · rw [hdata]
      exact slotType_of_blankTable blankTable_fatSector i
  | ext4 =>
    obtain ⟨o, -, hplanned⟩ := mem_ext4Plan_planned hw
    generalize w.2 = x at hplanned
    cases hplanned with
    | superblock _ => exact slotType_of_blankTable (blankTable_superblock totalSectors) i
    | descriptor g _ _ => exact slotType_of_blankTable (blankTable_descriptor _ _) i
    | blockBitmap _ _ _ => exact slotType_of_blankTable blankTable_blockBitmap i
    | inodeBitmap _ _ _ => exact slotType_of_blankTable (fun _ _ _ => rfl) i

end FileSystemType

/-- No sector that the formatter writes is sector 0 for the drive, which sees 28
bits of the number. -/
def LeavesMbr (fs : FileSystemType) (startLba totalSectors : UInt32) : Prop :=
  ∀ o ∈ fs.offsets totalSectors.toNat, (startLba.toNat + o) % 2 ^ 28 ≠ 0

theorem leavesMbr_iff (fs : FileSystemType) (startLba totalSectors : UInt32) :
    LeavesMbr fs startLba totalSectors ↔
      ∀ w ∈ fs.plan startLba totalSectors, deviceLba w.1 ≠ 0 := by
  have hsectors := fs.plan_sectors startLba totalSectors
  have hplan : (∀ w ∈ fs.plan startLba totalSectors, deviceLba w.1 ≠ 0) ↔
      ∀ n ∈ (fs.plan startLba totalSectors).map (fun w => w.1.toNat), n % 2 ^ 28 ≠ 0 := by
    rw [List.forall_mem_map]
    exact Iff.rfl
  rw [hplan, hsectors, List.forall_mem_map, LeavesMbr]
  have hcut : ∀ o, (startLba.toNat + o) % 2 ^ 32 % 2 ^ 28 = (startLba.toNat + o) % 2 ^ 28 := by
    intro o
    omega
  simp only [hcut]

namespace DiskState

variable {fs : FileSystemType} {c d : Fin 2} {startLba totalSectors : UInt32} {k : DiskState}

/-- A formatter that succeeds has written its plan. -/
theorem formatter_done (hdone : (k.formatter fs c d startLba totalSectors).1 = 0) :
    ∃ k' : DiskState, k'.media = k.media ∧
      (k'.writeAll c d (fs.plan startLba totalSectors)).1 = true ∧
      (k.formatter fs c d startLba totalSectors).2 =
        (k'.writeAll c d (fs.plan startLba totalSectors)).2 := by
  cases fs with
  | fat32 =>
    refine ⟨k, rfl, ?_, rfl⟩
    by_contra hfail
    simp [formatter, formatFat32, FileSystemType.plan] at hdone hfail
    simp [hfail] at hdone
  | ext4 =>
    obtain ⟨hall, hdisk⟩ := formatExt4_done hdone
    exact ⟨k.read c d (startLba + 2), rfl, hall, hdisk⟩

/-- The type of an entry after a successful formatter. -/
theorem formatter_slotType (hdone : (k.formatter fs c d startLba totalSectors).1 = 0)
    (i : Fin 4) :
    (LeavesMbr fs startLba totalSectors ∧
      ((k.formatter fs c d startLba totalSectors).2.media c d 0).slotType i =
        (k.media c d 0).slotType i) ∨
    (¬LeavesMbr fs startLba totalSectors ∧
      ((k.formatter fs c d startLba totalSectors).2.media c d 0).slotType i = 0) := by
  obtain ⟨k', hmedia, hall, hdisk⟩ := formatter_done hdone
  rw [hdisk, leavesMbr_iff, ← hmedia]
  by_cases hleaves : ∀ w ∈ fs.plan startLba totalSectors, deviceLba w.1 ≠ 0
  · refine Or.inl ⟨hleaves, ?_⟩
    rw [writeAll_media_of_ne]
    rintro w hw ⟨-, -, hlba⟩
    exact hleaves w hw hlba.symm
  · refine Or.inr ⟨hleaves, ?_⟩
    have hhit : ∃ w ∈ fs.plan startLba totalSectors, deviceLba w.1 = 0 := by
      simpa using hleaves
    obtain ⟨w, hw, -, hsector⟩ := writeAll_media_mem hall hhit
    rw [hsector]
    exact fs.plan_slotType startLba totalSectors hw i

end DiskState

namespace Machine

variable (s : Machine)

/-- The first sector and the size that entry `i` of the selected disk gives. -/
def entryLba (i : ℕ) : UInt32 := PartitionEntry.lbaFirst s.selectedMbr.mbr (entryAt i)

def entryCount (i : ℕ) : UInt32 := PartitionEntry.sectorCount s.selectedMbr.mbr (entryAt i)

/-- A disk is selected, sector 0 is read, the entry is not empty, and the operations
of the formatter are served. -/
def FormatServed (fs : FileSystemType) (i : ℕ) : Prop :=
  s.currentDisk ≠ -1 ∧ s.bus.next.abort = false ∧ s.selectedMbr.slotType i ≠ 0 ∧
    s.disk.FormatterServed fs (s.entryCount i) (s.bus.issued + 1)

end Machine

section Command

variable {s : Machine} (fs : FileSystemType) (frame : LocalArray) (i : Fin 4)

/-- A call that does not get to its formatter fails. -/
theorem run_formatPartition_unserved (hs : s.Ready)
    (hstop : s.currentDisk = -1 ∨ s.bus.next.abort = true ∨ s.selectedMbr.slotType i = 0) :
    ∃ reads s', ((formatPartition frame i.val fs).run []).run s = some ((-1, reads), s') := by
  by_cases hcurrent : s.currentDisk = -1
  · obtain ⟨s', hrun, -⟩ := formatPartition_does fs frame i.val s hs
    have hnone : s.system.formatPartition fs frame i.val = ((-1, []), s.system) :=
      if_pos hcurrent
    dsimp only at hrun
    rw [hnone] at hrun
    exact ⟨[], s', hrun⟩
  · obtain ⟨s', hrun, -⟩ := run_formatPartition fs frame i.val hs hcurrent
    cases hread : s.disk.next.abort with
    | true =>
      rw [DiskState.formatEntry_unread fs frame i.val hread] at hrun
      exact ⟨_, s', hrun⟩
    | false =>
      have hempty : s.selectedMbr.slotType i = 0 := by
        rcases hstop with h | h | h
        · exact absurd h hcurrent
        · exact absurd (hread.symm.trans h) (by simp)
        · exact h
      have htype : (LocalArray.ofMemory s.selectedMbr.mbr frame).field i.val .type = 0 := by
        rw [LocalArray.field_ofMemory _ frame (by omega) (by omega)]
        exact (type_eq_zero_iff _ _).mp hempty
      rw [DiskState.formatEntry_empty fs frame i.val hread htype] at hrun
      exact ⟨_, s', hrun⟩

/-- For an index in the table the geometry is that of the entry. -/
theorem DiskState.formatEntry_valid {c d : Fin 2} {k : DiskState}
    (hread : k.next.abort = false) (hused : (k.media c d 0).slotType i ≠ 0) :
    ∃ reads, k.formatEntry fs c d frame i.val =
      ((((k.read c d 0).formatter fs c d (PartitionEntry.lbaFirst (k.media c d 0).mbr (entryAt i))
          (PartitionEntry.sectorCount (k.media c d 0).mbr (entryAt i))).1, reads),
        (k.read c d 0).format fs c d (PartitionEntry.lbaFirst (k.media c d 0).mbr (entryAt i))
          (PartitionEntry.sectorCount (k.media c d 0).mbr (entryAt i))) := by
  have hfield : ∀ f, (LocalArray.ofMemory (k.media c d 0).mbr frame).field i.val f =
      partitionEntry.get (k.media c d 0).mbr (entryAt i) f := fun f =>
    LocalArray.field_ofMemory _ frame (by omega) (by omega) f
  have htype : (LocalArray.ofMemory (k.media c d 0).mbr frame).field i.val .type ≠ 0 := by
    rw [hfield]
    exact fun h => hused ((type_eq_zero_iff _ _).mpr h)
  rw [formatEntry_used fs frame i.val hread htype, hfield, hfield]
  exact ⟨_, rfl⟩

/-- A call that gets to its formatter does to the disks what the formatter does. -/
theorem run_formatPartition_used (hs : s.Ready) (hcurrent : s.currentDisk ≠ -1)
    (hread : s.bus.next.abort = false) (hused : s.selectedMbr.slotType i ≠ 0) :
    ∃ reads s', ((formatPartition frame i.val fs).run []).run s =
        some ((((s.disk.read s.selected.controller s.selected.drive 0).formatter fs
          s.selected.controller s.selected.drive (s.entryLba i) (s.entryCount i)).1, reads), s') ∧
      s'.bus.media = ((s.disk.read s.selected.controller s.selected.drive 0).formatter fs
          s.selected.controller s.selected.drive (s.entryLba i) (s.entryCount i)).2.media := by
  obtain ⟨s', hrun, hdisk⟩ := run_formatPartition fs frame i.val hs hcurrent
  have hread' : s.disk.next.abort = false := hread
  obtain ⟨reads, hentry⟩ := DiskState.formatEntry_valid fs frame i hread' hused
  rw [hentry] at hrun hdisk
  exact ⟨reads, s', hrun, congrArg DiskState.media hdisk⟩

/-- A call on a valid index comes back. If it returns 0 the entry has the type of
the file system exactly when it had that type before and the formatter has left
sector 0 alone. -/
theorem partition_type_iff (hs : s.Ready) :
    ∃ rc reads s', ((formatPartition frame i.val fs).run []).run s = some ((rc, reads), s') ∧
      ((rc = 0 → (s'.bus.media s.selected.controller s.selected.drive 0).slotType i = fs.code) ↔
        ¬s.FormatServed fs i ∨
          (s.selectedMbr.slotType i = fs.code ∧ LeavesMbr fs (s.entryLba i) (s.entryCount i))) := by
  by_cases hstop : s.currentDisk = -1 ∨ s.bus.next.abort = true ∨ s.selectedMbr.slotType i = 0
  · obtain ⟨reads, s', hrun⟩ := run_formatPartition_unserved fs frame i hs hstop
    refine ⟨-1, reads, s', hrun, iff_of_true (fun h => by omega) (Or.inl ?_)⟩
    rintro ⟨hcurrent, hread, hused, -⟩
    rcases hstop with h | h | h
    · exact hcurrent h
    · exact absurd (hread.symm.trans h) (by simp)
    · exact hused h
  · obtain ⟨hcurrent, hrest⟩ := not_or.mp hstop
    obtain ⟨hread, hused⟩ := not_or.mp hrest
    have hread' : s.bus.next.abort = false := Bool.eq_false_iff.mpr hread
    obtain ⟨reads, s', hrun, hmedia⟩ :=
      run_formatPartition_used fs frame i hs hcurrent hread' hused
    refine ⟨_, reads, s', hrun, ?_⟩
    have hserved : s.FormatServed fs i ↔
        ((s.disk.read s.selected.controller s.selected.drive 0).formatter fs
          s.selected.controller s.selected.drive (s.entryLba i) (s.entryCount i)).1 = 0 := by
      rw [DiskState.formatter_eq_zero_iff]
      exact ⟨fun h => h.2.2.2, fun h => ⟨hcurrent, hread', hused, h⟩⟩
    rw [hserved, hmedia]
    by_cases hdone : ((s.disk.read s.selected.controller s.selected.drive 0).formatter fs
        s.selected.controller s.selected.drive (s.entryLba i) (s.entryCount i)).1 = 0
    · have hcode : fs.code ≠ 0 := by cases fs <;> decide
      have hbefore : ((s.disk.read s.selected.controller s.selected.drive 0).media
        s.selected.controller s.selected.drive 0).slotType i = s.selectedMbr.slotType i := rfl
      rcases DiskState.formatter_slotType hdone i with ⟨hleaves, hafter⟩ | ⟨hhit, hafter⟩
      · rw [hafter, hbefore]
        simp [hdone, hleaves]
      · rw [hafter]
        simp [hdone, hhit, hcode.symm]
    · simp [hdone]

/-- Entry 0 is a Linux partition of 65536 sectors that starts at sector 2048. -/
def linuxSector : Sector := fun b =>
  if b.val = 450 then 0x83 else if b.val = 455 then 0x08 else if b.val = 460 then 0x01 else 0

/-- Every disk has the partition of `linuxSector`, and every drive is in order. -/
def linuxMachine : Machine :=
  bootMachine (fun _ _ _ => linuxSector) (fun _ => promptAnswer) primaryMaster

theorem partition_type_linux :
    ∃ s, Run Command.exec (fun _ _ => True) linuxMachine [.update, .selectDisk 0] s ∧
      ∃ rc reads s', ((formatPartition (fun _ => 0) ((0 : Fin 4).val : ℤ) .ext4).run []).run s =
          some ((rc, reads), s') ∧
        ((rc = 0 → (s'.bus.media s.selected.controller s.selected.drive 0).slotType (0 : Fin 4) =
            FileSystemType.code .ext4) ↔
          ¬s.FormatServed .ext4 (0 : Fin 4) ∨
            (s.selectedMbr.slotType (0 : Fin 4) = FileSystemType.code .ext4 ∧
              LeavesMbr .ext4 (s.entryLba (0 : Fin 4)) (s.entryCount (0 : Fin 4)))) := by
  obtain ⟨s, hrun, hs, -⟩ := exists_selected_prompt fun _ _ _ => linuxSector
  exact ⟨s, hrun, partition_type_iff .ext4 (fun _ => 0) 0 hs⟩

/-- The Linux partition is formatted as FAT32, and keeps its type. -/
theorem formatPartition_keeps_type :
    ∃ s, Run Command.exec (fun _ _ => True) linuxMachine [.update, .selectDisk 0] s ∧
      ∃ reads s', ((formatPartition (fun _ => 0) 0 .fat32).run []).run s =
          some ((0, reads), s') ∧
        (s'.bus.media s.selected.controller s.selected.drive 0).slotType 0 = 0x83 ∧
        FileSystemType.code .fat32 ≠ 0x83 := by
  obtain ⟨s, hrun, hs, hcurrent, hread, hmedia₀, hanswers⟩ :=
    exists_selected_prompt fun _ _ _ => linuxSector
  have hmbr : s.selectedMbr = linuxSector := by rw [Machine.selectedMbr, hmedia₀]
  have htype : s.selectedMbr.slotType 0 = 0x83 := by
    rw [hmbr]
    decide
  have hlba : s.entryLba (0 : Fin 4) = 2048 := by
    rw [Machine.entryLba, hmbr]
    decide
  have hcount : s.entryCount (0 : Fin 4) = 65536 := by
    rw [Machine.entryCount, hmbr]
    decide
  have hused : s.selectedMbr.slotType (0 : Fin 4) ≠ 0 := by
    change s.selectedMbr.slotType 0 ≠ 0
    rw [htype]
    decide
  obtain ⟨reads, s', hformat, hmedia⟩ :=
    run_formatPartition_used .fat32 (fun _ => 0) 0 hs hcurrent hread hused
  rw [hlba, hcount] at hformat hmedia
  have hdone : ((s.disk.read s.selected.controller s.selected.drive 0).formatter .fat32
      s.selected.controller s.selected.drive 2048 65536).1 = 0 := by
    rw [DiskState.formatter_eq_zero_iff]
    intro j _
    have hanswer : s.disk.answers = fun _ => promptAnswer := funext hanswers
    rw [DiskState.read_answers, hanswer]
    exact ⟨rfl, rfl⟩
  rw [hdone] at hformat
  refine ⟨s, hrun, reads, s', hformat, ?_, by decide⟩
  rw [hmedia]
  have hleaves : LeavesMbr .fat32 2048 65536 := by
    intro o ho
    change o ∈ [0, 32, 32 + (65536 + (2 ^ 32 - 32)) % 2 ^ 32 / 1026 * 2] at ho
    change (2048 + o) % 2 ^ 28 ≠ 0
    simp only [List.mem_cons, List.not_mem_nil, or_false] at ho
    omega
  rcases DiskState.formatter_slotType hdone 0 with ⟨-, hafter⟩ | ⟨hhit, -⟩
  · exact hafter.trans htype
  · exact absurd hleaves hhit

end Command

end EtyOS
