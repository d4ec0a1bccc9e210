import EtyOS.Kernel.Machine
import EtyOS.Partition.Layout

/-!
# `init_superblock` and `format_ext4`

The formatter builds every sector in one heap buffer of 512 bytes. The
superblock pointer and the descriptor pointer both overlay that buffer, and
the pool that contains it is byte-addressed, so clearing the whole
`Ext4Superblock` reaches past the end of the buffer.
-/

namespace EtyOS

open Library

def ext4SuperblockOffset : ℕ := 1024
def ext4Magic : ℕ := 0xEF53
def ext4DefaultBlockSize : UInt32 := 4096
def ext4FirstIno : UInt32 := 11
def ext4FeatureCompatDirIndex : ℕ := 0x0020
def ext4FeatureIncompatExtents : ℕ := 0x0040
def ext4FeatureIncompat64Bit : ℕ := 0x0080

/-- `memory_zero` on the disk buffer. -/
def memoryZero (dest length : ℕ) : Kernel Unit :=
  bufferWrite dest length fun m => m.fill dest 0 length

/-- `memory_copy` of a string literal into the disk buffer. The literal is not
in the pool, so the direction of the copy makes no difference. -/
def memoryCopy (dest : ℕ) (literal : List UInt8) : Kernel Unit :=
  bufferWrite dest literal.length fun m => m.write dest literal

/-- Assignments to the fields of a structure that overlays the disk buffer. -/
def storeFields {F : Type} [DecidableEq F] (L : Layout F) (a : ℕ) : List (F × ℕ) → Kernel Unit
  | [] => pure ()
  | (f, v) :: rest => do
    bufferWrite (a + L.offset f) (L.size f) fun m => L.set m a f v
    storeFields L a rest

section InitSuperblock

variable (totalSectors : UInt32)

/-- `blocks_count`, after the clamp to 32 bits. -/
def blocksCount : UInt64 :=
  let totalSize := totalSectors.toUInt64 * 512
  let blocks := totalSize / ext4DefaultBlockSize.toUInt64
  if blocks > 0xFFFFFFFF then 0xFFFFFFFF else blocks

def inodesPerGroup : UInt32 := 8192
def blocksPerGroup : UInt32 := 32768

/-- `num_block_groups` of `init_superblock`. -/
def superblockGroups : UInt32 :=
  ((blocksCount totalSectors + blocksPerGroup.toUInt64 - 1) / blocksPerGroup.toUInt64).toUInt32

/-- The assignments of `init_superblock`, in order. -/
def superblockFields : List (SuperblockField × ℕ) :=
  let blocks := blocksCount totalSectors
  let inodes := inodesPerGroup * superblockGroups totalSectors
  [(.sInodesCount, inodes.toNat),
    (.sBlocksCountLo, (blocks &&& 0xFFFFFFFF).toUInt32.toNat),
    (.sBlocksCountHi, ((blocks >>> 32) &&& 0xFFFFFFFF).toUInt32.toNat),
    (.sRBlocksCountLo, ((blocks / 20) &&& 0xFFFFFFFF).toUInt32.toNat),
    (.sFreeBlocksCountLo, (blocks - 1).toUInt32.toNat),
    (.sFreeInodesCount, (inodes - ext4FirstIno + 1).toNat),
    (.sFirstDataBlock, if ext4DefaultBlockSize = 1024 then 1 else 0),
    -- `__builtin_ctz(4096) - 10`
    (.sLogBlockSize, 12 - 10),
    (.sBlocksPerGroup, blocksPerGroup.toNat),
    (.sInodesPerGroup, inodesPerGroup.toNat),
    (.sMagic, ext4Magic),
    (.sState, 1),
    (.sErrors, 1),
    (.sRevLevel, 1),
    (.sFirstIno, ext4FirstIno.toNat),
    (.sInodeSize, 256),
    (.sFeatureCompat, ext4FeatureCompatDirIndex),
    (.sFeatureIncompat, ext4FeatureIncompatExtents ||| ext4FeatureIncompat64Bit)]

/-- `"etyOS"`. -/
def volumeName : List UInt8 := [0x65, 0x74, 0x79, 0x4F, 0x53]

def initSuperblock (sb : ℕ) : Kernel Unit := do
  memoryZero sb ext4Superblock.sizeof
  storeFields ext4Superblock sb (superblockFields totalSectors)
  memoryZero (sb + ext4Superblock.offset .sVolumeName) (ext4Superblock.size .sVolumeName)
  memoryCopy (sb + ext4Superblock.offset .sVolumeName) volumeName

end InitSuperblock

/-- The numbers of `format_ext4` that the group loop reads. -/
structure Ext4Geometry where
  startLba : UInt32
  sbSector : UInt32
  blocksPerGroup : UInt32
  totalBlocks : UInt32
  numBlockGroups : UInt32
  firstBlock : UInt32

namespace Ext4Geometry

variable (g : Ext4Geometry) (group : UInt32)

def groupFirstBlock : UInt32 := g.firstBlock + group * g.blocksPerGroup

/-- The last group takes the remaining blocks. -/
def blocksInGroup : UInt32 :=
  if group = g.numBlockGroups - 1 then g.totalBlocks - group * g.blocksPerGroup
  else g.blocksPerGroup

def gdtSector : UInt32 := g.sbSector + 1 + group

def bitmapSector : UInt32 :=
  g.startLba + g.groupFirstBlock group * ext4DefaultBlockSize / 512

/-- The assignments to a group descriptor before the inode count. -/
def descriptorFields : List (GroupDescField × ℕ) :=
  [(.bgBlockBitmapLo, (g.groupFirstBlock group).toNat),
    (.bgInodeBitmapLo, (g.groupFirstBlock group + 1).toNat),
    (.bgInodeTableLo, (g.groupFirstBlock group + 2).toNat),
    (.bgFreeBlocksCountLo, (g.blocksInGroup group - 4).toUInt16.toNat)]

end Ext4Geometry

/-- The assignments to a group descriptor from the inode count on. -/
def inodeFields (inodes : ℕ) : List (GroupDescField × ℕ) :=
  [(.bgFreeInodesCountLo, inodes), (.bgUsedDirsCountLo, 0), (.bgFlags, 0)]

/-- The local variables of `format_ext4` during the group loop. -/
structure Ext4Job extends Ext4Geometry where
  controller : Fin 2
  drive : Fin 2
  diskBuffer : ℕ
  sb : ℕ

namespace Ext4Job

variable (j : Ext4Job) (group : UInt32)

/-- Write the disk buffer to a sector; a failure is reported and the buffer
freed before the formatter returns. -/
def writeOrFree (lba : UInt32) (error : List PrintCall) : Kernel ℤ := do
  let m ← bufferRead id
  let rc ← ataWriteSectorDisk j.controller j.drive lba j.diskBuffer m
  if rc ≠ 0 then
    console error
    kernelFree j.diskBuffer
    return -1
  else
    return 0

/-- The group descriptor. `sb->s_inodes_per_group` is read through the
superblock pointer, from the buffer that has just been cleared. -/
def fillDescriptor : Kernel Unit := do
  memoryZero j.diskBuffer 512
  storeFields ext4GroupDesc j.diskBuffer (j.descriptorFields group)
  let inodes ← bufferRead fun m => ext4Superblock.get m j.sb .sInodesPerGroup
  storeFields ext4GroupDesc j.diskBuffer (inodeFields inodes)

/-- The progress message, once every ten groups. -/
def reportProgress : Kernel Unit :=
  if group % 10 = 0 then
    console [.str "Processing block group ", .int group, .str " of ", .int j.numBlockGroups,
      .newline]
  else return ()

def writeDescriptor : Kernel ℤ := do
  j.fillDescriptor group
  j.writeOrFree (j.gdtSector group)
    [.str "Error: cannot write block group descriptor at sector ", .int (j.gdtSector group),
      .newline]

def writeBlockBitmap : Kernel ℤ := do
  memoryZero j.diskBuffer 512
  bufferWrite j.diskBuffer 1 fun m => Function.update m j.diskBuffer 0x0F
  j.writeOrFree (j.bitmapSector group)
    [.str "Error: cannot write block bitmap at sector ", .int (j.bitmapSector group), .newline]

def writeInodeBitmap : Kernel ℤ := do
  memoryZero j.diskBuffer 512
  j.writeOrFree (j.bitmapSector group + 1)
    [.str "Error: cannot write inode bitmap at sector ", .int (j.bitmapSector group + 1),
      .newline]

/-- One iteration of the group loop; it returns -1 when `format_ext4` does. -/
def formatGroup : Kernel ℤ := do
  j.reportProgress group
  let rc ← j.writeDescriptor group
  if rc ≠ 0 then return -1
  else
    let rc ← j.writeBlockBitmap group
    if rc ≠ 0 then return -1 else j.writeInodeBitmap group

/-- The loop over the groups from `group` on. -/
def formatGroups : ℕ → UInt32 → Kernel ℤ
  | 0, _ => return 0
  | count + 1, group => do
    let rc ← j.formatGroup group
    if rc ≠ 0 then return -1 else formatGroups count (group + 1)

end Ext4Job

section FormatExt4

variable (controller drive : Fin 2) (startLba totalSectors : UInt32)

/-- The exits of `format_ext4` that report an error and free the buffer. -/
def failAndFree (diskBuffer : ℕ) (error : List PrintCall) : Kernel ℤ := do
  console error
  kernelFree diskBuffer
  return -1

/-- `format_ext4` from the group loop on. -/
def formatBlockGroups (j : Ext4Job) : Kernel ℤ := do
  let firstBlock ← bufferRead fun m => ext4Superblock.get m j.sb .sFirstDataBlock
  let j := { j with firstBlock := UInt32.ofNat firstBlock }
  let rc ← j.formatGroups j.numBlockGroups.toNat 0
  if rc ≠ 0 then return -1
  else
    console [.str "EXT4 formatting completed successfully.", .newline]
    kernelFree j.diskBuffer
    return 0

/-- `format_ext4` from the write of the superblock on. -/
def formatVolume (j : Ext4Job) : Kernel ℤ := do
  console [.str "Total blocks: ", .int j.totalBlocks, .newline,
    .str "Blocks per group: ", .int j.blocksPerGroup, .newline,
    .str "Number of block groups: ", .int j.numBlockGroups, .newline]
  let rc ← j.writeOrFree j.sbSector [.str "Error: cannot write superblock", .newline]
  if rc ≠ 0 then return -1 else formatBlockGroups j

/-- `format_ext4` from `init_superblock` on. -/
def formatFromSuperblock (diskBuffer : ℕ) : Kernel ℤ := do
  let sbSector := startLba + UInt32.ofNat (ext4SuperblockOffset / sectorSize)
  let sb := diskBuffer + ext4SuperblockOffset % sectorSize
  initSuperblock totalSectors sb
  let perGroup ← bufferRead fun m => UInt32.ofNat (ext4Superblock.get m sb .sBlocksPerGroup)
  if perGroup = 0 then
    failAndFree diskBuffer [.str "Error: invalid blocks per group", .newline]
  else
    let total ← bufferRead fun m => UInt32.ofNat (ext4Superblock.get m sb .sBlocksCountLo)
    let groups := (total + perGroup - 1) / perGroup
    if groups = 0 ∨ groups > 65536 then
      failAndFree diskBuffer
        [.str "Error: invalid number of block groups: ", .int groups, .newline]
    else
      formatVolume
        { controller := controller, drive := drive, startLba := startLba, sbSector := sbSector
          diskBuffer := diskBuffer, sb := sb, blocksPerGroup := perGroup, totalBlocks := total
          numBlockGroups := groups, firstBlock := 0 }

/-- `format_ext4` once it has its buffer. -/
def formatInBuffer (diskBuffer : ℕ) : Kernel ℤ := do
  memoryZero diskBuffer 512
  let sbSector := startLba + UInt32.ofNat (ext4SuperblockOffset / sectorSize)
  let m ← bufferRead id
  let (rc, m) ← ataReadSectorDisk controller drive sbSector diskBuffer m
  modify fun s => s.bufferStore (if rc = 0 then [(diskBuffer, sectorSize)] else []) m
  if rc ≠ 0 then
    failAndFree diskBuffer [.str "Error: cannot read superblock", .newline]
  else formatFromSuperblock controller drive startLba totalSectors diskBuffer

def formatExt4 : Kernel ℤ := do
  console [.str "Formatting partition to ext4...", .newline]
  if totalSectors < 8192 then
    console [.str "Error: minimum ext4 size is 32 MB", .newline]
    return -1
  else
    let diskBuffer ← kernelAllocate 512
    if diskBuffer = 0 then
      console [.str "Error: cannot allocate memory for disk buffer", .newline]
      return -1
    else
      formatInBuffer controller drive startLba totalSectors diskBuffer

end FormatExt4

end EtyOS
