import EtyOS.Partition.Create
import EtyOS.Partition.Ext4Safety

/-!
# Creating a partition, seen from the disks

The formatters and the two creation routines as operations on the disks alone:
which sectors are read and written, with what, and where the routine stops when
an operation fails.
-/

namespace EtyOS

open Library

section Fat32

variable (c d : Fin 2) (startLba totalSectors : UInt32)

/-- The three sectors of a fresh FAT32 volume, in order. -/
def fat32Plan : List (UInt32 × Sector) :=
  [(startLba, Sector.ofMemory (bootSectorMemory startLba totalSectors) 0),
    (startLba + reservedSectors, Sector.ofMemory fatSectorMemory 0),
    (startLba + reservedSectors + sectorsPerFat totalSectors, Sector.ofMemory fatSectorMemory 0)]

/-- `format_fat32` as an operation on the disks. -/
def DiskState.formatFat32 (k : DiskState) : ℤ × DiskState :=
  let r := k.writeAll c d (fat32Plan startLba totalSectors)
  (if r.1 then 0 else -1, r.2)

/-- A write with an early return, followed by the rest of a formatter. -/
theorem write_then_does (lba : UInt32) (m : Memory) {y : Kernel ℤ} {f : DiskState → ℤ × DiskState}
    (hy : Does y (System.onDisk f)) :
    Does (do let rc ← ataWriteSectorDisk c d lba 0 m; if rc ≠ 0 then return -1 else y : Kernel ℤ)
      (System.onDisk fun k =>
        if k.next.ok then f (k.write c d lba (Sector.ofMemory m 0))
        else (-1, k.write c d lba (Sector.ofMemory m 0))) := by
  refine (Simulates.bind (writeSector_does c d lba 0 m) fun rc =>
    Simulates.ite (fun _ => Simulates.pure (-1)) fun _ => hy).of_eq fun t => ?_
  by_cases hok : t.disk.next.ok <;> simp [System.onDisk, hok]

theorem formatFat32_does :
    Does (formatFat32 c d startLba totalSectors)
      (System.onDisk fun k => k.formatFat32 c d startLba totalSectors) := by
  have hreturn : Does (pure (0 : ℤ)) (System.onDisk fun k => (0, k)) := Simulates.pure 0
  refine (write_then_does c d startLba _ (write_then_does c d _ _
    (write_then_does c d _ _ hreturn))).of_eq fun t => ?_
  simp only [System.onDisk, DiskState.formatFat32, fat32Plan, DiskState.writeAll]
  split
  · split
    · split <;> rfl
    · rfl
  · rfl

end Fat32

/-- The type byte that a creation routine stores. -/
def FileSystemType.code : FileSystemType → UInt8
  | .fat32 => fat32PartitionType
  | .ext4 => ext4PartitionType

section Mbr

variable (x : Sector) (i : ℕ)

/-- The local array after sector 0 has been read into it. -/
def Sector.mbr : Memory := x.toMemory uninitialised 0

def Sector.slotType : UInt8 := PartitionEntry.type x.mbr (entryAt i)

/-- The lowest slot of type 0. -/
def Sector.freeSlot : Option ℕ := (List.range 4).find? fun i => x.slotType i = 0

def Sector.fillSlot (code : UInt8) (startLba count : UInt32) : Sector :=
  Sector.ofMemory (PartitionEntry.fill x.mbr (entryAt i) code startLba count) 0

def Sector.clearSlot : Sector := Sector.ofMemory (PartitionEntry.clear x.mbr (entryAt i)) 0

theorem type_mbr : PartitionEntry.type (x.toMemory uninitialised 0) (entryAt i) = x.slotType i := rfl

theorem clear_mbr :
    Sector.ofMemory (PartitionEntry.clear (x.toMemory uninitialised 0) (entryAt i)) 0 =
      x.clearSlot i := rfl

theorem deviceLba_zero : deviceLba 0 = 0 := rfl

end Mbr

namespace DiskState

variable (fs : FileSystemType) (c d : Fin 2) (startLba count : UInt32) (k : DiskState)

/-- The formatter of a file system. -/
def formatter : ℤ × DiskState :=
  match fs with
  | .fat32 => k.formatFat32 c d startLba count
  | .ext4 => k.formatExt4 c d startLba count

/-- The formatter as called by the creation routines, with the record of its result. -/
def format : DiskState :=
  (k.formatter fs c d startLba count).2.log
    (.format fs c d startLba count (k.formatter fs c d startLba count).1)

/-- `create_fat32_partition` and `create_ext4_partition` as operations on the disks. -/
def create : DiskState :=
  if k.next.abort then k.read c d 0
  else
    match (k.media c d 0).freeSlot with
    | none => k.read c d 0
    | some i =>
      let k' := (k.read c d 0).write c d 0 ((k.media c d 0).fillSlot i fs.code startLba count)
      if (k.read c d 0).next.ok then k'.format fs c d startLba count else k'

end DiskState

section Create

variable (r : CreateRoutine) (c d : Fin 2) (startLba count : UInt32)

theorem fillSlot_does
    (hformat : Does (r.format c d startLba count)
      (System.onDisk fun k => k.formatter r.fs c d startLba count)) (mbr : Memory) (i : ℕ) :
    Does (r.fillSlot c d startLba count mbr i) (System.onDisk fun k =>
      let k' := k.write c d 0
        (Sector.ofMemory (PartitionEntry.fill mbr (entryAt i) r.code startLba count) 0)
      ((), if k.next.ok then k'.format r.fs c d startLba count else k')) := by
  refine (Simulates.bind (console_does _) fun _ => Simulates.bind (writeSector_does c d 0 0 _)
    fun rc => Simulates.ite (fun _ => console_does _) fun _ => Simulates.bind hformat fun rc =>
      Simulates.bind (record_does _) fun _ => Simulates.ite (fun _ => console_does _)
        fun _ => console_does _).of_eq fun t => ?_
  by_cases hok : t.disk.next.ok <;> simp [System.onDisk, DiskState.format, hok]

theorem scanSlots_does
    (hformat : Does (r.format c d startLba count)
      (System.onDisk fun k => k.formatter r.fs c d startLba count)) (mbr : Memory) (n i : ℕ) :
    Does (r.scanSlots c d startLba count mbr n i) (System.onDisk fun k => ((),
      match (List.range' i n).find? fun i => PartitionEntry.type mbr (entryAt i) = 0 with
      | none => k
      | some i =>
        let k' := k.write c d 0
          (Sector.ofMemory (PartitionEntry.fill mbr (entryAt i) r.code startLba count) 0)
        if k.next.ok then k'.format r.fs c d startLba count else k')) := by
  induction n generalizing i with
  | zero => exact console_does _
  | succ n ih =>
    unfold CreateRoutine.scanSlots
    by_cases htype : PartitionEntry.type mbr (entryAt i) = 0
    · rw [if_pos htype, List.range'_succ, List.find?_cons_of_pos (by simpa using htype)]
      exact fillSlot_does r c d startLba count hformat mbr i
    · rw [if_neg htype, List.range'_succ, List.find?_cons_of_neg (by simpa using htype)]
      exact ih (i + 1)

theorem create_does (hcode : r.code = r.fs.code)
    (hformat : Does (r.format c d startLba count)
      (System.onDisk fun k => k.formatter r.fs c d startLba count)) :
    Does (r.create c d startLba count)
      (System.onDisk fun k => ((), k.create r.fs c d startLba count)) := by
  refine (Simulates.bind (console_does _) fun _ => Simulates.bind (readSector_does c d 0 0 _)
    fun a => Simulates.ite (fun _ => console_does _) fun _ => Simulates.bind (console_does _)
      fun _ => scanSlots_does r c d startLba count hformat a.2 4 0).of_eq fun t => ?_
  simp only [System.onDisk, DiskState.create]
  by_cases habort : t.disk.next.abort = true
  · simp [habort]
  · simp only [habort, Bool.false_eq_true, if_false, ne_eq, not_true_eq_false]
    rw [← hcode, ← List.range_eq_range']
    rfl

theorem createExt4Partition_does :
    Does (createExt4Partition c d startLba count)
      (System.onDisk fun k => ((), k.create .ext4 c d startLba count)) :=
  create_does ext4Routine c d startLba count rfl (formatExt4_does c d startLba count)

theorem createFat32Partition_does :
    Does (createFat32Partition c d startLba count)
      (System.onDisk fun k => ((), k.create .fat32 c d startLba count)) :=
  create_does fat32Routine c d startLba count rfl (formatFat32_does c d startLba count)

end Create

end EtyOS
