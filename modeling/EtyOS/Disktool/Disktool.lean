import EtyOS.Partition.Create

/-!
# The commands of `disktool.c`

`init_disktool` rebuilds the table of disks from the drives that answer;
the other commands act on the disk the selection points at. Indices and result
codes are integers as in C.
-/

namespace EtyOS

open Library

/-- `MB_TO_SECTORS`, in 32-bit arithmetic. -/
def mbToSectors (mb : UInt32) : UInt32 := mb * 1024 * 1024 / 512

/-- The characters of a byte string up to the first NUL. -/
def cString (bytes : List UInt8) : String :=
  String.ofList ((bytes.takeWhile (· ≠ 0)).map fun b => Char.ofNat b.toNat)

/-- `read_string_from_identify` on words `first` to `last`: high byte, then low. -/
def readStringFromIdentify (buffer : ℕ → UInt16) (first last : ℕ) : List UInt8 :=
  (List.range' first (last + 1 - first)).flatMap fun i =>
    [(buffer i >>> 8).toUInt8, (buffer i).toUInt8]

/-- `identify_buffer[60] | (identify_buffer[61] << 16)`. -/
def identifySectors (buffer : ℕ → UInt16) : UInt32 :=
  (buffer 60).toUInt32 ||| ((buffer 61).toUInt32 <<< 16)

/-- `(total_sectors * SECTOR_SIZE) / (1024 * 1024)`: the product wraps at 32 bits. -/
def sectorsToMb (totalSectors : UInt32) : UInt32 := totalSectors * 512 / (1024 * 1024)

/-- The table entry of a drive that answered. -/
def diskInfo (controller drive : Fin 2) (buffer : ℕ → UInt16) : DiskInfo where
  controller := controller
  drive := drive
  model := readStringFromIdentify buffer 27 46
  sizeMb := (sectorsToMb (identifySectors buffer)).toUInt64

/-- The body of the scan for one drive position. -/
def scanDrive (controller drive : Fin 2) : Kernel Unit := do
  let answer ← driver fun budget => Driver.identifyDrive budget controller drive
  match answer with
  | none => return ()
  | some buffer => modify fun s =>
    { s with
      availableDisks :=
        Function.update s.availableDisks s.numDisks (diskInfo controller drive buffer)
      numDisks := s.numDisks + 1 }

def initDisktool : Kernel Unit := do
  modify fun s => { s with numDisks := 0 }
  console [.str "Analyzing disks...", .newline]
  scanDrive 0 0
  scanDrive 0 1
  scanDrive 1 0
  scanDrive 1 1
  let s ← get
  console [.str "Found ", .dec (UInt32.ofNat s.numDisks), .str " disks", .newline, .newline]

def selectDisk (diskIndex : ℤ) : Kernel ℤ := do
  let s ← get
  if diskIndex < 0 ∨ diskIndex ≥ s.numDisks then
    console [.str "Invalid disk index", .newline]
    return -1
  else
    set { s with currentDisk := diskIndex }
    console [.str "Selected disk: ", .str (cString (s.availableDisks diskIndex.toNat).model),
      .newline]
    return 0

/-- `available_disks[current_disk]`. -/
def Machine.selected (s : Machine) : DiskInfo := s.availableDisks s.currentDisk.toNat

/-- `if (fs_type == FS_FAT32) ... else if (fs_type == FS_EXT4) ...`: the second
argument is the remark the caller makes about FAT32. -/
def createByType (fsType : FileSystemType) (remark : String) (disk : DiskInfo)
    (startLba sectorCount : UInt32) : Kernel Unit :=
  match fsType with
  | .fat32 => do
    console [.str remark, .newline]
    createFat32Partition disk.controller disk.drive startLba sectorCount
  | .ext4 => createExt4Partition disk.controller disk.drive startLba sectorCount

def createPartitionMb (sizeMb : UInt32) (fsType : FileSystemType) : Kernel ℤ := do
  let s ← get
  if s.currentDisk = -1 then
    console [.str "No disk selected", .newline]
    return -1
  else if sizeMb.toUInt64 > s.selected.sizeMb then
    console [.str "Requested size exceeds disk capacity", .newline]
    return -1
  else
    createByType fsType "FAT32 PARTITION IS NOT RECOMMENDED" s.selected 2048 (mbToSectors sizeMb)
    initDisktool
    return 0

def formatDisk (fsType : FileSystemType) : Kernel ℤ := do
  let s ← get
  if s.currentDisk = -1 then
    console [.str "No disk selected", .newline]
    return -1
  else
    let totalSizeMb := s.selected.sizeMb.toUInt32
    if totalSizeMb < 32 then
      console [.str "Disk too small for FAT32", .newline]
      return -1
    else
      createByType fsType "FAT32 PARTITIONS IS NOT RECOMMENDED" s.selected 2048
        (mbToSectors totalSizeMb - 2048)
      return 0

section Delete

variable {M : Type → Type} [Monad M] [MonadLiftT Kernel M]
  (readType : Memory → ℤ → M UInt8)

/-- `delete_partition` once its checks have passed. `readType` reads the byte
`partition_table[partition_index].type` of the array, and may keep a record of it. -/
def deleteEntryWith (disk : DiskInfo) (partitionIndex : ℤ) : M ℤ := do
  let (rc, mbr) ← ataReadSectorDisk disk.controller disk.drive 0 0 uninitialised
  if rc ≠ 0 then
    console [.str "Error reading MBR", .newline]
    return -1
  else
    let type ← readType mbr partitionIndex
    if type = 0 then
      console [.str "Partition does not exist", .newline]
      return -1
    else
      let rc ← ataWriteSectorDisk disk.controller disk.drive 0 0
        (PartitionEntry.clear mbr (entryAt partitionIndex.toNat))
      if rc ≠ 0 then
        console [.str "Error writing MBR", .newline]
        return -1
      else
        console [.str "Partition deleted successfully", .newline]
        return 0

def deletePartitionWith (partitionIndex : ℤ) : M ℤ := do
  let s ← (get : Kernel Machine)
  if s.currentDisk = -1 then
    console [.str "No disk selected", .newline]
    return -1
  else if partitionIndex < 0 ∨ partitionIndex ≥ 4 then
    console [.str "Invalid partition index", .newline]
    return -1
  else deleteEntryWith readType s.selected partitionIndex

end Delete

/-- `partition_table[i].type`, for an index that has been checked. -/
def entryType (mbr : Memory) (i : ℤ) : Kernel UInt8 :=
  return PartitionEntry.type mbr (entryAt i.toNat)

def deletePartition (partitionIndex : ℤ) : Kernel ℤ := deletePartitionWith entryType partitionIndex

end EtyOS
