import EtyOS.Partition.Requests

/-!
# The numbers of an ext4 volume

`init_superblock` computes in 64 bits, `format_ext4` computes again in 32 bits
from what was stored. For every size that is accepted both get the same number
of groups, nothing wraps, and the groups tile the volume.
-/

namespace EtyOS

open Library

section Superblock

variable (totalSectors : UInt32)

theorem superblockGroups_toNat :
    (superblockGroups totalSectors).toNat = groupsOf totalSectors.toNat := by
  have hlt := totalSectors.toNat_lt
  have hsum : (blocksCount totalSectors + blocksPerGroup.toUInt64 - 1).toNat =
      totalSectors.toNat / 8 + 32767 := by
    rw [UInt64.toNat_sub, UInt64.toNat_add, blocksCount_toNat]
    change (2 ^ 64 - 1 + (totalSectors.toNat / 8 + 32768) % 2 ^ 64) % 2 ^ 64 = _
    omega
  rw [superblockGroups, UInt64.toNat_toUInt32, UInt64.toNat_div, hsum]
  change (totalSectors.toNat / 8 + 32767) / 32768 % 2 ^ 32 = _
  unfold groupsOf
  omega

/-- A number of 32 bits is stored as it is in a field of four bytes. -/
theorem get_superblockMemory_word {f : SuperblockField} {v : ℕ}
    (hv : (f, v) ∈ superblockFields totalSectors) (hsize : ext4Superblock.size f = 4)
    (hlt : v < 2 ^ 32) : ext4Superblock.get (superblockMemory totalSectors) 0 f = v := by
  rw [get_superblockMemory totalSectors hv, hsize]
  exact Nat.mod_eq_of_lt hlt

theorem blocksCountHi :
    ((blocksCount totalSectors >>> 32) &&& 0xFFFFFFFF).toUInt32.toNat = 0 := by
  have hlt := totalSectors.toNat_lt
  have hshift : (blocksCount totalSectors >>> 32).toNat = 0 := by
    rw [UInt64.toNat_shiftRight, blocksCount_toNat]
    change (totalSectors.toNat / 8) >>> 32 = 0
    rw [Nat.shiftRight_eq_div_pow]
    omega
  rw [UInt64.toNat_toUInt32, UInt64.toNat_and, hshift, Nat.zero_and, Nat.zero_mod]

theorem reservedBlocks :
    ((blocksCount totalSectors / 20) &&& 0xFFFFFFFF).toUInt32.toNat =
      totalSectors.toNat / 8 / 20 := by
  have hlt := totalSectors.toNat_lt
  have hdiv : (blocksCount totalSectors / 20).toNat = totalSectors.toNat / 8 / 20 := by
    rw [UInt64.toNat_div, blocksCount_toNat]
    rfl
  rw [UInt64.toNat_toUInt32, UInt64.toNat_and, hdiv]
  change (totalSectors.toNat / 8 / 20 &&& 2 ^ 32 - 1) % 2 ^ 32 = _
  rw [Nat.and_two_pow_sub_one_eq_mod]
  omega

theorem freeBlocks (hsize : 8192 ≤ totalSectors.toNat) :
    (blocksCount totalSectors - 1).toUInt32.toNat = totalSectors.toNat / 8 - 1 := by
  have hlt := totalSectors.toNat_lt
  rw [UInt64.toNat_toUInt32, UInt64.toNat_sub, blocksCount_toNat]
  change (2 ^ 64 - 1 + totalSectors.toNat / 8) % 2 ^ 64 % 2 ^ 32 = _
  omega

theorem inodesCount :
    (inodesPerGroup * superblockGroups totalSectors).toNat =
      8192 * groupsOf totalSectors.toNat := by
  have hgroups := groupsOf_le totalSectors
  rw [UInt32.toNat_mul, superblockGroups_toNat]
  change 8192 * groupsOf totalSectors.toNat % 2 ^ 32 = _
  omega

theorem groupsOf_pos (hsize : 8192 ≤ totalSectors.toNat) : 0 < groupsOf totalSectors.toNat := by
  unfold groupsOf
  omega

/-- The inodes before the first free one are in use. -/
theorem freeInodes (hsize : 8192 ≤ totalSectors.toNat) :
    (inodesPerGroup * superblockGroups totalSectors - ext4FirstIno + 1).toNat =
      8192 * groupsOf totalSectors.toNat - 11 + 1 := by
  have hgroups := groupsOf_le totalSectors
  have hpos := groupsOf_pos totalSectors hsize
  rw [UInt32.toNat_add, UInt32.toNat_sub, inodesCount]
  change ((2 ^ 32 - 11 + 8192 * groupsOf totalSectors.toNat) % 2 ^ 32 + 1) % 2 ^ 32 = _
  omega

/-- The numbers of a superblock in full, for `B` blocks in `G` groups. -/
structure SuperblockExact (B G : ℕ) (field : SuperblockField → ℕ) : Prop where
  blocks : field .sBlocksCountLo + 2 ^ 32 * field .sBlocksCountHi = B
  inodes : field .sInodesCount = 8192 * G
  reserved : field .sRBlocksCountLo = B / 20
  freeBlocks : field .sFreeBlocksCountLo = B - 1
  freeInodes : field .sFreeInodesCount = 8192 * G - 11 + 1

theorem superblockMemory_exact (hsize : 8192 ≤ totalSectors.toNat) :
    SuperblockExact (totalSectors.toNat / 8) (groupsOf totalSectors.toNat)
      (ext4Superblock.get (superblockMemory totalSectors) 0) := by
  have hword : ∀ {f v} (x : UInt32), (f, x.toNat) ∈ superblockFields totalSectors →
      ext4Superblock.size f = 4 → x.toNat = v →
      ext4Superblock.get (superblockMemory totalSectors) 0 f = v := by
    intro f v x hmem hfour hx
    rw [← hx]
    exact get_superblockMemory_word totalSectors hmem hfour x.toNat_lt
  constructor
  · have hlow : ext4Superblock.get (superblockMemory totalSectors) 0 .sBlocksCountLo =
        totalSectors.toNat / 8 :=
      hword (totalSectors / 8) (by rw [← blocksCountLo]; simp [superblockFields]) (by decide)
        (UInt32.toNat_div _ _)
    have hhigh : ext4Superblock.get (superblockMemory totalSectors) 0 .sBlocksCountHi = 0 :=
      hword _ (by simp [superblockFields]) (by decide) (blocksCountHi totalSectors)
    rw [hlow, hhigh]
    rfl
  · exact hword _ (by simp [superblockFields]) (by decide) (inodesCount totalSectors)
  · exact hword _ (by simp [superblockFields]) (by decide) (reservedBlocks totalSectors)
  · exact hword _ (by simp [superblockFields]) (by decide) (freeBlocks totalSectors hsize)
  · exact hword _ (by simp [superblockFields]) (by decide) (freeInodes totalSectors hsize)

end Superblock

section Groups

variable (startLba totalSectors : UInt32)

/-- Every group has a block, none more than 32768, and together they have all. -/
theorem blocksInGroup_tiles (hsize : 8192 ≤ totalSectors.toNat) :
    (∀ g < groupsOf totalSectors.toNat,
      1 ≤ ((ext4Geometry startLba totalSectors).blocksInGroup (UInt32.ofNat g)).toNat ∧
      ((ext4Geometry startLba totalSectors).blocksInGroup (UInt32.ofNat g)).toNat ≤ 32768) ∧
    ((List.range (groupsOf totalSectors.toNat)).map fun g =>
      ((ext4Geometry startLba totalSectors).blocksInGroup (UInt32.ofNat g)).toNat).sum =
        totalSectors.toNat / 8 := by
  have hcount := groupsOf_eq_count totalSectors.toNat
  constructor
  · intro g hg
    rw [blocksInGroup_toNat startLba totalSectors hg]
    exact ⟨Tiling.piece_pos (by omega) (hcount ▸ hg), Tiling.piece_le⟩
  · have hpieces : (List.range (groupsOf totalSectors.toNat)).map (fun g =>
        ((ext4Geometry startLba totalSectors).blocksInGroup (UInt32.ofNat g)).toNat) =
        (List.range (Tiling.count 32768 (totalSectors.toNat / 8))).map
          (Tiling.piece 32768 (totalSectors.toNat / 8)) := by
      rw [← hcount]
      apply List.map_congr_left
      intro g hg
      exact blocksInGroup_toNat startLba totalSectors (List.mem_range.mp hg)
    rw [hpieces]
    exact Tiling.sum_piece (by omega) (by omega)

end Groups

/-- The numbers that `init_superblock` has stored and the geometry that
`format_ext4` goes on with, for a volume of `B` blocks in `G` groups. -/
structure GeometryExact (B G : ℕ) (field : SuperblockField → ℕ) (g : Ext4Geometry) : Prop
    extends SuperblockExact B G field where
  reserved_le : field .sRBlocksCountLo ≤ field .sFreeBlocksCountLo
  free_lt : field .sFreeBlocksCountLo < B
  freeInodes_pos : 0 < field .sFreeInodesCount
  freeInodes_lt : field .sFreeInodesCount < field .sInodesCount
  blocksPerGroup : g.blocksPerGroup = UInt32.ofNat (field .sBlocksPerGroup)
  totalBlocks : g.totalBlocks = UInt32.ofNat (field .sBlocksCountLo)
  recomputed : g.numBlockGroups = (g.totalBlocks + g.blocksPerGroup - 1) / g.blocksPerGroup
  groups : g.numBlockGroups.toNat = G
  groups_pos : 1 ≤ G
  groups_le : G ≤ 65536
  sizes : ∀ group < G, 1 ≤ (g.blocksInGroup (UInt32.ofNat group)).toNat ∧
    (g.blocksInGroup (UInt32.ofNat group)).toNat ≤ 32768
  sum : ((List.range G).map fun group => (g.blocksInGroup (UInt32.ofNat group)).toNat).sum = B

theorem geometryExact (startLba totalSectors : UInt32) (hsize : 8192 ≤ totalSectors.toNat) :
    GeometryExact (totalSectors.toNat / 8) (groupsOf totalSectors.toNat)
      (ext4Superblock.get (superblockMemory totalSectors) 0)
      (ext4Geometry startLba totalSectors) := by
  have hpos := groupsOf_pos totalSectors hsize
  have hle := groupsOf_le totalSectors
  obtain ⟨hsizes, hsum⟩ := blocksInGroup_tiles startLba totalSectors hsize
  have hexact := superblockMemory_exact totalSectors hsize
  exact
    { hexact with
      reserved_le := by
        rw [hexact.reserved, hexact.freeBlocks]
        omega
      free_lt := by
        rw [hexact.freeBlocks]
        omega
      freeInodes_pos := by
        rw [hexact.freeInodes]
        omega
      freeInodes_lt := by
        rw [hexact.freeInodes, hexact.inodes]
        omega
      blocksPerGroup := (get_sBlocksPerGroup totalSectors).symm
      totalBlocks := (get_sBlocksCountLo totalSectors).symm
      recomputed := by
        simp only [ext4Geometry]
        grind
      groups := numBlockGroups_toNat startLba totalSectors
      groups_pos := hpos
      groups_le := by omega
      sizes := hsizes
      sum := hsum }

/-- For every size that is accepted, `init_superblock` stores its numbers in
full, `format_ext4` computes the same number of groups from the stored block
count and goes on past both of its checks, and the groups tile the volume. -/
theorem ext4_geometry_exact (c d : Fin 2) (startLba totalSectors : UInt32)
    (hsize : 8192 ≤ totalSectors.toNat) (diskBuffer : ℕ) (s : Machine) :
    ∃ s' j, (initSuperblock totalSectors diskBuffer).run s = some ((), s') ∧
      (formatFromSuperblock c d startLba totalSectors diskBuffer).run s =
        (formatVolume j).run s' ∧
      GeometryExact (totalSectors.toNat / 8) ((totalSectors.toNat / 8 + 32767) / 32768)
        (ext4Superblock.get s'.memory diskBuffer) j.toExt4Geometry := by
  have hsmall : ¬totalSectors < 8192 := by
    rw [UInt32.lt_iff_toNat_lt]
    exact Nat.not_lt.mpr hsize
  obtain ⟨l, hinit, hvolume⟩ :=
    formatFromSuperblock_eq c d startLba totalSectors diskBuffer s hsmall
  have hfield : ext4Superblock.get (superblockIn totalSectors s.memory diskBuffer) diskBuffer =
      ext4Superblock.get (superblockMemory totalSectors) 0 := by
    funext f
    have hend := ext4Superblock.offset_add_size_le f
    rw [sizeof_ext4Superblock] at hend
    exact ext4Superblock.get_of_shows (superblockIn_shows totalSectors s.memory diskBuffer) hend
  refine ⟨_, ext4Job c d startLba totalSectors diskBuffer, hinit, hvolume, ?_⟩
  rw [Machine.memory_bufferStore, hfield]
  exact geometryExact startLba totalSectors hsize

/-- 32769 blocks, which is one more than a group holds. -/
theorem ext4_geometry_exact_two_groups :
    ∃ s' j, (initSuperblock 262152 4096).run (blankMachine fun _ => none) = some ((), s') ∧
      (formatFromSuperblock 0 0 2048 262152 4096).run (blankMachine fun _ => none) =
        (formatVolume j).run s' ∧
      GeometryExact 32769 2 (ext4Superblock.get s'.memory 4096) j.toExt4Geometry :=
  ext4_geometry_exact 0 0 2048 262152 (by decide) 4096 _

end EtyOS
