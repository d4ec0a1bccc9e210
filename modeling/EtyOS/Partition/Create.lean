import EtyOS.Partition.Ext4
import EtyOS.Partition.Fat32

/-!
# `create_ext4_partition` and `create_fat32_partition`

Both read the MBR, fill the first entry of type 0, write the MBR back and call
their formatter. They differ in the type code, the formatter and what they
print; `CreateRoutine` holds these differences.
-/

namespace EtyOS

open Library

def partitionTableOffset : ℕ := 446
def ext4PartitionType : UInt8 := 0x83
def fat32PartitionType : UInt8 := 0x0C

/-- The address of entry `i` in an MBR at address 0. -/
def entryAt (i : ℕ) : ℕ := partitionTableOffset + 16 * i

namespace PartitionEntry

variable (mbr : Memory) (entry : ℕ)

def status : UInt8 := UInt8.ofNat (partitionEntry.get mbr entry .status)
def type : UInt8 := UInt8.ofNat (partitionEntry.get mbr entry .type)
def lbaFirst : UInt32 := UInt32.ofNat (partitionEntry.get mbr entry .lbaFirst)
def sectorCount : UInt32 := UInt32.ofNat (partitionEntry.get mbr entry .sectorCount)

/-- The four assignments to a free entry, in order. -/
def fill (code : UInt8) (startLba count : UInt32) : Memory :=
  partitionEntry.setAll mbr entry
    [(.status, 0), (.type, code.toNat), (.lbaFirst, startLba.toNat), (.sectorCount, count.toNat)]

/-- The loop of `delete_partition` that zeroes the bytes of an entry. -/
def clear : Memory := mbr.fill entry 0 partitionEntry.sizeof

end PartitionEntry

/-- The contents of a local array before it is filled. The callers look at it
only after a read that succeeds, which fills all 512 bytes. -/
def uninitialised : Memory := fun _ => 0

/-- Where the two creation routines differ. -/
structure CreateRoutine where
  fs : FileSystemType
  code : UInt8
  format : Fin 2 → Fin 2 → UInt32 → UInt32 → Kernel ℤ
  beforeRead : List PrintCall
  beforeScan : List PrintCall
  beforeWrite : List PrintCall
  formatError : List PrintCall
  success : List PrintCall

namespace CreateRoutine

variable (r : CreateRoutine) (controller drive : Fin 2) (startLba sectorCount : UInt32)

/-- The MBR with entry `i` filled is written, then the partition formatted. -/
def fillSlot (mbr : Memory) (i : ℕ) : Kernel Unit := do
  let mbr := PartitionEntry.fill mbr (entryAt i) r.code startLba sectorCount
  console r.beforeWrite
  let rc ← ataWriteSectorDisk controller drive 0 0 mbr
  if rc ≠ 0 then
    console [.str "Error: Unable to write MBR.", .newline]
  else
    let rc ← r.format controller drive startLba sectorCount
    record (.format r.fs controller drive startLba sectorCount rc)
    if rc ≠ 0 then console r.formatError else console r.success

/-- `for (int i = 0; i < 4; ++i)` with the return in its body. -/
def scanSlots (mbr : Memory) : ℕ → ℕ → Kernel Unit
  | 0, _ => console [.str "Error: No empty partition slots available.", .newline]
  | count + 1, i =>
    if PartitionEntry.type mbr (entryAt i) = 0 then
      r.fillSlot controller drive startLba sectorCount mbr i
    else scanSlots mbr count (i + 1)

def create : Kernel Unit := do
  console r.beforeRead
  let (rc, mbr) ← ataReadSectorDisk controller drive 0 0 uninitialised
  if rc ≠ 0 then
    console [.str "Error: Unable to read MBR.", .newline]
  else
    console r.beforeScan
    r.scanSlots controller drive startLba sectorCount mbr 4 0

end CreateRoutine

def ext4Routine : CreateRoutine where
  fs := .ext4
  code := ext4PartitionType
  format := formatExt4
  beforeRead := [.str "Reading MBR...", .newline]
  beforeScan := [.str "Creating partition table...", .newline]
  beforeWrite := [.str "Writing sector...", .newline]
  formatError := [.str "Error: Unable to format ext4 partition.", .newline]
  success := [.str "EXT4 Partition created and formatted successfully.", .newline]

def fat32Routine : CreateRoutine where
  fs := .fat32
  code := fat32PartitionType
  format := formatFat32
  beforeRead := []
  beforeScan := []
  beforeWrite := []
  formatError := [.str "Error: Unable to format FAT32 partition.", .newline]
  success := [.str "FAT32 Partition created and formatted successfully.", .newline]

def createExt4Partition : Fin 2 → Fin 2 → UInt32 → UInt32 → Kernel Unit := ext4Routine.create

def createFat32Partition : Fin 2 → Fin 2 → UInt32 → UInt32 → Kernel Unit := fat32Routine.create

end EtyOS
