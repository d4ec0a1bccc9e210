import EtyOS.Partition.Ext4

/-!
# What `format_ext4` writes

The sectors of a fresh volume as functions of the start and the size alone:
the superblock, and for every group its descriptor and its two bitmaps. The
records are laid out in memories that start at address 0.
-/

namespace EtyOS

open Library

/-- A cleared buffer. -/
def zeroMemory : Memory := fun _ => 0

/-- The record that `init_superblock` leaves. -/
def superblockMemory (totalSectors : UInt32) : Memory :=
  let m := ext4Superblock.setAll zeroMemory 0 (superblockFields totalSectors)
  let m := m.fill (ext4Superblock.offset .sVolumeName) 0 (ext4Superblock.size .sVolumeName)
  m.write (ext4Superblock.offset .sVolumeName) volumeName

/-- The first four blocks of the group are in use. -/
def blockBitmapMemory : Memory := Function.update zeroMemory 0 0x0F

namespace Ext4Geometry

variable (g : Ext4Geometry)

/-- The descriptor sector; the inode count comes out of the cleared buffer. -/
def descriptorMemory (group : UInt32) : Memory :=
  let m := ext4GroupDesc.setAll zeroMemory 0 (g.descriptorFields group)
  ext4GroupDesc.setAll m 0 (inodeFields (ext4Superblock.get m 0 .sInodesPerGroup))

def groupPlan (group : UInt32) : List (UInt32 × Sector) :=
  [(g.gdtSector group, Sector.ofMemory (g.descriptorMemory group) 0)] ++
    ([(g.bitmapSector group, Sector.ofMemory blockBitmapMemory 0)] ++
      [(g.bitmapSector group + 1, Sector.ofMemory zeroMemory 0)])

/-- The sectors of `count` groups from `group` on. -/
def groupsPlan : ℕ → UInt32 → List (UInt32 × Sector)
  | 0, _ => []
  | count + 1, group => g.groupPlan group ++ groupsPlan count (group + 1)

end Ext4Geometry

/-- The geometry of a volume: blocks of 8 sectors in groups of 32768. -/
def ext4Geometry (startLba totalSectors : UInt32) : Ext4Geometry where
  startLba := startLba
  sbSector := startLba + 2
  blocksPerGroup := 32768
  totalBlocks := totalSectors / 8
  numBlockGroups := (totalSectors / 8 + 32767) / 32768
  firstBlock := 0

/-- Everything that is written to a fresh volume, in order. -/
def ext4Plan (startLba totalSectors : UInt32) : List (UInt32 × Sector) :=
  let g := ext4Geometry startLba totalSectors
  (g.sbSector, Sector.ofMemory (superblockMemory totalSectors) 0) ::
    g.groupsPlan g.numBlockGroups.toNat 0

section Geometry

variable (startLba totalSectors : UInt32)

theorem blocksCount_toNat : (blocksCount totalSectors).toNat = totalSectors.toNat / 8 := by
  have hsize := totalSectors.toNat_lt
  have hmul : (totalSectors.toUInt64 * 512).toNat = totalSectors.toNat * 512 := by
    rw [UInt64.toNat_mul, UInt32.toNat_toUInt64]
    exact Nat.mod_eq_of_lt (by change totalSectors.toNat * 512 < _; omega)
  have hdiv : (totalSectors.toUInt64 * 512 / ext4DefaultBlockSize.toUInt64).toNat =
      totalSectors.toNat / 8 := by
    rw [UInt64.toNat_div, hmul]
    change totalSectors.toNat * 512 / 4096 = _
    omega
  have hclamp : ¬totalSectors.toUInt64 * 512 / ext4DefaultBlockSize.toUInt64 > 0xFFFFFFFF := by
    rw [gt_iff_lt, UInt64.lt_iff_toNat_lt, hdiv]
    change ¬4294967295 < _
    omega
  rw [blocksCount, if_neg hclamp, hdiv]

/-- The low half of the block count is all of it. -/
theorem blocksCountLo :
    (blocksCount totalSectors &&& 0xFFFFFFFF).toUInt32 = totalSectors / 8 := by
  have hsize := totalSectors.toNat_lt
  apply UInt32.toNat_inj.mp
  rw [UInt64.toNat_toUInt32, UInt64.toNat_and, blocksCount_toNat, UInt32.toNat_div]
  change (totalSectors.toNat / 8 &&& 2 ^ 32 - 1) % 2 ^ 32 = totalSectors.toNat / 8
  rw [Nat.and_two_pow_sub_one_eq_mod]
  omega

theorem totalBlocks_toNat :
    (ext4Geometry startLba totalSectors).totalBlocks.toNat = totalSectors.toNat / 8 := by
  rw [ext4Geometry, UInt32.toNat_div]
  rfl

theorem numBlockGroups_toNat :
    (ext4Geometry startLba totalSectors).numBlockGroups.toNat =
      (totalSectors.toNat / 8 + 32767) / 32768 := by
  have hsize := totalSectors.toNat_lt
  have hblocks := totalBlocks_toNat startLba totalSectors
  have hsum : (totalSectors / 8 + 32767).toNat = totalSectors.toNat / 8 + 32767 := by
    rw [UInt32.toNat_add, UInt32.toNat_div]
    change (totalSectors.toNat / 8 + 32767) % 2 ^ 32 = _
    omega
  rw [ext4Geometry, UInt32.toNat_div, hsum]
  rfl

/-- The number of groups is accepted. -/
theorem numBlockGroups_valid (hsize : ¬totalSectors < 8192) :
    ¬((ext4Geometry startLba totalSectors).numBlockGroups = 0 ∨
      (ext4Geometry startLba totalSectors).numBlockGroups > 65536) := by
  have hgroups := numBlockGroups_toNat startLba totalSectors
  have hlt := totalSectors.toNat_lt
  rw [UInt32.lt_iff_toNat_lt] at hsize
  change ¬_ < 8192 at hsize
  rw [not_or]
  constructor
  · intro h
    rw [h] at hgroups
    change 0 = _ at hgroups
    omega
  · rw [gt_iff_lt, UInt32.lt_iff_toNat_lt, hgroups]
    change ¬65536 < _
    omega

end Geometry

section Superblock

variable (totalSectors : UInt32)

theorem offset_sVolumeName : ext4Superblock.offset .sVolumeName = 120 := by decide

theorem size_sVolumeName : ext4Superblock.size .sVolumeName = 16 := by decide

/-- A field other than the volume name holds what was assigned to it. -/
theorem get_superblockMemory {f : SuperblockField} {v : ℕ}
    (hv : (f, v) ∈ superblockFields totalSectors) :
    ext4Superblock.get (superblockMemory totalSectors) 0 f = v % 256 ^ ext4Superblock.size f := by
  have hnodup : ((superblockFields totalSectors).map Prod.fst).Nodup := by
    simp only [superblockFields, List.map_cons, List.map_nil]
    decide
  have hname : f ≠ .sVolumeName := by
    have hmem : f ∈ (superblockFields totalSectors).map Prod.fst := List.mem_map_of_mem hv
    simp only [superblockFields, List.map_cons, List.map_nil] at hmem
    rintro rfl
    revert hmem
    decide
  have hlen : volumeName.length = 5 := rfl
  rw [superblockMemory, ← ext4Superblock.get_setAll zeroMemory 0 hnodup hv]
  apply ext4Superblock.get_congr_of_ne hname.symm
  intro b hb
  rw [size_sVolumeName] at hb
  rw [Memory.write_frame _ _ (by omega), Memory.fill_frame _ _ (by rw [size_sVolumeName]; omega)]

theorem get_sBlocksPerGroup :
    UInt32.ofNat (ext4Superblock.get (superblockMemory totalSectors) 0 .sBlocksPerGroup) =
      32768 := by
  rw [get_superblockMemory totalSectors (v := blocksPerGroup.toNat) (by simp [superblockFields])]
  rfl

theorem get_sFirstDataBlock :
    UInt32.ofNat (ext4Superblock.get (superblockMemory totalSectors) 0 .sFirstDataBlock) = 0 := by
  rw [get_superblockMemory totalSectors (v := 0)
    (by simp [superblockFields, ext4DefaultBlockSize])]
  rfl

theorem get_sBlocksCountLo :
    UInt32.ofNat (ext4Superblock.get (superblockMemory totalSectors) 0 .sBlocksCountLo) =
      totalSectors / 8 := by
  rw [get_superblockMemory totalSectors (v := (totalSectors / 8).toNat)
    (by rw [← blocksCountLo]; simp [superblockFields])]
  have hsize : 256 ^ ext4Superblock.size .sBlocksCountLo = 2 ^ 32 := by decide
  rw [hsize, Nat.mod_eq_of_lt (UInt32.toNat_lt _), UInt32.ofNat_toNat]

end Superblock

end EtyOS
