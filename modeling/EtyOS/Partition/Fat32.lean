import EtyOS.Kernel.Machine
import EtyOS.Partition.Layout

/-!
# `format_fat32`

The boot sector and the first FAT sector are local arrays, modelled as
memories that start at address 0.
-/

namespace EtyOS

open Library

def reservedSectors : UInt32 := 32
def sectorsPerCluster : UInt32 := 8

/-- `SECTORS_PER_FAT`, in the 32-bit arithmetic of its argument. -/
def sectorsPerFat (totalSectors : UInt32) : UInt32 :=
  (totalSectors - reservedSectors) / (sectorsPerCluster * 128 + 2) * 2

/-- `"MSWIN4.1"`. -/
def oemName : List UInt8 := [0x4D, 0x53, 0x57, 0x49, 0x4E, 0x34, 0x2E, 0x31]

/-- `"NO NAME    "`. -/
def volumeLabel : List UInt8 :=
  [0x4E, 0x4F, 0x20, 0x4E, 0x41, 0x4D, 0x45, 0x20, 0x20, 0x20, 0x20]

/-- `"FAT32   "`. -/
def fatFsType : List UInt8 := [0x46, 0x41, 0x54, 0x33, 0x32, 0x20, 0x20, 0x20]

/-- The boot sector that `format_fat32` assembles. -/
def bootSectorMemory (startLba totalSectors : UInt32) : Memory :=
  let m : Memory := fun _ => 0
  let m := m.write (fat32BootSector.offset .jumpBoot) [0xEB, 0x58, 0x90]
  let m := m.write (fat32BootSector.offset .oemName) oemName
  let m := fat32BootSector.setAll m 0
    [(.bytesPerSector, sectorSize),
      (.sectorsPerCluster, sectorsPerCluster.toNat),
      (.reservedSectors, reservedSectors.toNat),
      (.numFats, 2),
      (.rootEntries, 0),
      (.totalSectors16, 0),
      (.mediaType, 0xF8),
      (.sectorsPerFat16, 0),
      (.sectorsPerTrack, 63),
      (.numHeads, 255),
      (.hiddenSectors, startLba.toNat),
      (.totalSectors32, totalSectors.toNat),
      (.sectorsPerFat32, (sectorsPerFat totalSectors).toNat),
      (.extendedFlags, 0),
      (.fsVersion, 0),
      (.rootCluster, 2),
      (.fsInfo, 1),
      (.backupBoot, 6),
      (.driveNumber, 0x80),
      (.bootSignature, 0x29),
      (.volumeId, 0x12345678)]
  let m := m.write (fat32BootSector.offset .volumeLabel) volumeLabel
  let m := m.write (fat32BootSector.offset .fsType) fatFsType
  fat32BootSector.set m 0 .bootSignature2 0xAA55

/-- `fat[0]`, `fat[1]` and `fat[2]` of an otherwise zero sector. -/
def fatSectorMemory : Memory :=
  let m : Memory := fun _ => 0
  let m := m.store 0 4 0x0FFFFFF8
  let m := m.store 4 4 0x0FFFFFFF
  m.store 8 4 0x0FFFFFFF

/-- `format_fat32` prints nothing of its own. -/
def formatFat32 (controller drive : Fin 2) (startLba totalSectors : UInt32) : Kernel ℤ := do
  let rc ← ataWriteSectorDisk controller drive startLba 0 (bootSectorMemory startLba totalSectors)
  if rc ≠ 0 then return -1
  else
    let fat1Start := startLba + reservedSectors
    let fat2Start := fat1Start + sectorsPerFat totalSectors
    let rc ← ataWriteSectorDisk controller drive fat1Start 0 fatSectorMemory
    if rc ≠ 0 then return -1
    else
      let rc ← ataWriteSectorDisk controller drive fat2Start 0 fatSectorMemory
      if rc ≠ 0 then return -1 else return 0

end EtyOS
