import EtyOS.Partition.Geometry

/-!
# What the group descriptors count

A descriptor names the three first blocks of its group and counts all but four
blocks as free, in 16 bits; the count of free inodes is read from a buffer that
has been cleared. The superblock counts all blocks but one as free. So the two
accounts differ for every size, and a last group of less than four blocks has
its count wrapped.
-/

namespace EtyOS

open Library

section Descriptor

variable {startLba totalSectors : UInt32} {ws : List (UInt32 × Sector)} {w : UInt32 × Sector}
  {g : ℕ}

theorem superblockWrite_field (hws : ws <+: ext4Plan startLba totalSectors)
    (hw : superblockWrite ws = some w) {f : SuperblockField}
    (hf : ext4Superblock.offset f + ext4Superblock.size f ≤ 512) :
    w.2.superblock f = ext4Superblock.get (superblockMemory totalSectors) 0 f := by
  rw [superblockWrite_eq hws hw]
  exact superblock_ofMemory (superblockMemory totalSectors) hf

theorem descriptorWrite_field (hws : ws <+: ext4Plan startLba totalSectors)
    (hw : descriptorWrite ws g = some w) (f : GroupDescField) :
    w.2.groupDesc f = ext4GroupDesc.get
      ((ext4Geometry startLba totalSectors).descriptorMemory (UInt32.ofNat g)) 0 f := by
  rw [(descriptorWrite_eq hws hw).2]
  exact groupDesc_ofMemory (Ext4Geometry.descriptorMemory _ _) f

/-- The fields of the descriptor that was written for group `g`. -/
theorem descriptorWrite_blocks (hws : ws <+: ext4Plan startLba totalSectors)
    (hw : descriptorWrite ws g = some w) :
    w.2.groupDesc .bgBlockBitmapLo = 32768 * g ∧
      w.2.groupDesc .bgInodeBitmapLo = 32768 * g + 1 ∧
      w.2.groupDesc .bgInodeTableLo = 32768 * g + 2 ∧
      w.2.groupDesc .bgFreeBlocksCountLo =
        (Tiling.piece 32768 (totalSectors.toNat / 8) g + 65532) % 65536 := by
  obtain ⟨hg, -⟩ := descriptorWrite_eq hws hw
  have hle := groupsOf_le totalSectors
  have hfirst := groupFirstBlock_toNat startLba totalSectors hg
  have hsize := blocksInGroup_toNat startLba totalSectors hg
  have hpiece : Tiling.piece 32768 (totalSectors.toNat / 8) g ≤ 32768 := Tiling.piece_le
  have hfield : ∀ {f v}, (f, v) ∈ (ext4Geometry startLba totalSectors).descriptorFields
      (UInt32.ofNat g) → w.2.groupDesc f = v % 256 ^ ext4GroupDesc.size f := by
    intro f v hv
    rw [descriptorWrite_field hws hw, get_descriptorMemory _ _ hv]
  have hblock : ext4GroupDesc.size .bgBlockBitmapLo = 4 := by decide
  have hinode : ext4GroupDesc.size .bgInodeBitmapLo = 4 := by decide
  have htable : ext4GroupDesc.size .bgInodeTableLo = 4 := by decide
  have hfree : ext4GroupDesc.size .bgFreeBlocksCountLo = 2 := by decide
  refine ⟨?_, ?_, ?_, ?_⟩
  · rw [hfield (.head _), hblock, hfirst]
    omega
  · rw [hfield (.tail _ (.head _)), hinode, UInt32.toNat_add, hfirst]
    change (32768 * g + 1) % 2 ^ 32 % 256 ^ 4 = _
    omega
  · rw [hfield (.tail _ (.tail _ (.head _))), htable, UInt32.toNat_add, hfirst]
    change (32768 * g + 2) % 2 ^ 32 % 256 ^ 4 = _
    omega
  · rw [hfield (.tail _ (.tail _ (.tail _ (.head _)))), hfree, UInt32.toNat_toUInt16,
      UInt32.toNat_sub, hsize]
    change (2 ^ 32 - 4 + Tiling.piece 32768 (totalSectors.toNat / 8) g) % 2 ^ 32 % 2 ^ 16 %
      256 ^ 2 = _
    omega

/-- The inode count has been read from the cleared buffer. -/
theorem descriptorWrite_inodes (hws : ws <+: ext4Plan startLba totalSectors)
    (hw : descriptorWrite ws g = some w) : w.2.groupDesc .bgFreeInodesCountLo = 0 := by
  rw [descriptorWrite_field hws hw]
  exact get_descriptorMemory_inodes _ _

theorem superblockWrite_inodesPerGroup (hws : ws <+: ext4Plan startLba totalSectors)
    (hw : superblockWrite ws = some w) : w.2.superblock .sInodesPerGroup = 8192 := by
  rw [superblockWrite_field hws hw (by decide)]
  exact get_superblockMemory_word totalSectors (v := inodesPerGroup.toNat)
    (by simp [superblockFields]) (by decide) (by decide)

end Descriptor

section Sums

/-- The descriptors that were written, in order. -/
def descriptorsWritten (ws : List (UInt32 × Sector)) (groups : ℕ) : List Sector :=
  (List.range groups).filterMap fun g => (descriptorWrite ws g).map Prod.snd

variable (startLba totalSectors : UInt32)

/-- The free blocks of the groups of a whole plan. -/
theorem map_freeBlocks :
    (descriptorsWritten (ext4Plan startLba totalSectors) (groupsOf totalSectors.toNat)).map
        (fun x => x.groupDesc .bgFreeBlocksCountLo) =
      (List.range (groupsOf totalSectors.toNat)).map fun g =>
        (Tiling.piece 32768 (totalSectors.toNat / 8) g + 65532) % 65536 := by
  rw [descriptorsWritten, List.map_filterMap, ← List.filterMap_eq_map]
  apply List.filterMap_congr
  intro g hg
  obtain ⟨w, hw⟩ := descriptorWrite_plan startLba totalSectors (List.mem_range.mp hg)
  obtain ⟨-, -, -, hfree⟩ := descriptorWrite_blocks (List.prefix_refl _) hw
  rw [hw]
  exact congrArg some hfree

/-- All groups but the last have 32764 free blocks, and the last has what is
left but four, cut to 16 bits. -/
theorem sum_freeBlocks {n : ℕ} (hn : n + 1 = groupsOf totalSectors.toNat) :
    ((descriptorsWritten (ext4Plan startLba totalSectors) (groupsOf totalSectors.toNat)).map
        (fun x => x.groupDesc .bgFreeBlocksCountLo)).sum =
      n * 32764 + (totalSectors.toNat / 8 - 32768 * n + 65532) % 65536 := by
  have hcount := groupsOf_eq_count totalSectors.toNat
  rw [map_freeBlocks, hcount]
  exact Tiling.sum_map_piece (by omega) (hn.trans hcount) fun blocks => (blocks + 65532) % 65536

/-- The sum misses three blocks of each group, or exceeds the count of the
superblock by far: it never meets it. -/
theorem sum_freeBlocks_ne (hsize : 8192 ≤ totalSectors.toNat) :
    ((descriptorsWritten (ext4Plan startLba totalSectors) (groupsOf totalSectors.toNat)).map
        (fun x => x.groupDesc .bgFreeBlocksCountLo)).sum ≠ totalSectors.toNat / 8 - 1 := by
  obtain ⟨n, hn⟩ := Nat.exists_eq_succ_of_ne_zero (groupsOf_pos totalSectors hsize).ne'
  have hend : totalSectors.toNat / 8 ≤ 32768 * (n + 1) := by
    have hle := Tiling.le_mul_count (by omega : 0 < 32768) (totalSectors.toNat / 8)
    rwa [← groupsOf_eq_count, hn] at hle
  have hgroups := groupsOf_le totalSectors
  rw [sum_freeBlocks startLba totalSectors hn.symm]
  omega

end Sums

section Runs

variable (c d : Fin 2) (startLba totalSectors : UInt32)

/-- After a successful call the descriptors do not add up to the free blocks of
the superblock, whatever the size. -/
theorem freeBlocks_disagree (hsize : 8192 ≤ totalSectors.toNat) {s : Machine} (hs : s.Ready) :
    ∃ rc s' evs, (formatExt4 c d startLba totalSectors).run s = some (rc, s') ∧
      s'.trace = s.trace ++ evs ∧ (rc = 0 →
        let ws := evs.filterMap Event.writeRequest
        let descriptors := descriptorsWritten ws (groupsOf totalSectors.toNat)
        descriptors.length = groupsOf totalSectors.toNat ∧
        ∃ w, superblockWrite ws = some w ∧
          w.2.superblock .sFreeBlocksCountLo ≠
            (descriptors.map fun x => x.groupDesc .bgFreeBlocksCountLo).sum) := by
  obtain ⟨rc, s', evs, hrun, htrace, -, hall, -⟩ :=
    formatExt4_requests c d startLba totalSectors hs
  refine ⟨rc, s', evs, hrun, htrace, ?_⟩
  intro hrc
  have hmap := map_freeBlocks startLba totalSectors
  have hne := sum_freeBlocks_ne startLba totalSectors hsize
  have hsuper := superblockWrite_plan startLba totalSectors
  have hfree := (superblockMemory_exact totalSectors hsize).freeBlocks
  dsimp only
  rw [hall hrc]
  refine ⟨?_, _, hsuper, ?_⟩
  · have hlength := congrArg List.length hmap
    simpa using hlength
  · rw [superblockWrite_field (List.prefix_refl _) hsuper (by decide), hfree]
    exact hne.symm

/-- Two groups, the second of one block. -/
theorem freeBlocks_disagree_blank :
    ∃ s' evs, (formatExt4 0 0 2048 262152).run (blankMachine fun _ => none) = some (0, s') ∧
      s'.trace = (blankMachine fun _ => none).trace ++ evs ∧
      let ws := evs.filterMap Event.writeRequest
      let descriptors := descriptorsWritten ws 2
      descriptors.length = 2 ∧
      ∃ w, superblockWrite ws = some w ∧
        w.2.superblock .sFreeBlocksCountLo ≠
          (descriptors.map fun x => x.groupDesc .bgFreeBlocksCountLo).sum := by
  obtain ⟨rc, s', evs, hrun, htrace, hcounts⟩ :=
    freeBlocks_disagree 0 0 2048 262152 (by decide) (blankMachine_booted fun _ => none).ready
  obtain rfl := formatExt4_blank_code (by decide) hrun
  exact ⟨s', evs, hrun, htrace, hcounts rfl⟩

/-- One group of 1024 blocks: 1023 free blocks in the superblock, 1020 in the
descriptor. -/
theorem freeBlocks_of_smallest :
    ∃ s' w, (formatExt4 0 0 2048 8192).run (blankMachine fun _ => none) = some (0, s') ∧
      superblockWrite (s'.trace.filterMap Event.writeRequest) = some w ∧
      w.2.superblock .sFreeBlocksCountLo = 1023 ∧
      ((descriptorsWritten (s'.trace.filterMap Event.writeRequest) 1).map
        fun x => x.groupDesc .bgFreeBlocksCountLo).sum = 1020 := by
  obtain ⟨s', hrun, hws, -⟩ := formatExt4_blank 2048 8192 (by decide)
  have hgroups : groupsOf (8192 : UInt32).toNat = 1 := by decide
  have hsum := sum_freeBlocks 2048 8192 (n := 0) (by decide)
  have hfree := (superblockMemory_exact 8192 (by decide)).freeBlocks
  have hsuper := superblockWrite_plan 2048 8192
  rw [hgroups] at hsum
  refine ⟨s', _, hrun, hws ▸ hsuper, ?_, hws ▸ hsum⟩
  exact (superblockWrite_field (List.prefix_refl _) hsuper (by decide)).trans hfree

/-- Whether or not the call succeeds, no descriptor has the inode count of the
superblock: it is zero in all of them. -/
theorem freeInodes_differ {s : Machine} (hs : s.Ready) :
    ∃ rc s' evs, (formatExt4 c d startLba totalSectors).run s = some (rc, s') ∧
      s'.trace = s.trace ++ evs ∧
      let ws := evs.filterMap Event.writeRequest
      (rc = 0 → ws.length = 1 + 3 * groupsOf totalSectors.toNat) ∧
      ∀ g v w, superblockWrite ws = some v → descriptorWrite ws g = some w →
        w.2.groupDesc .bgFreeInodesCountLo ≠ v.2.superblock .sInodesPerGroup := by
  obtain ⟨rc, s', evs, hrun, htrace, hws, hall, -⟩ :=
    formatExt4_requests c d startLba totalSectors hs
  refine ⟨rc, s', evs, hrun, htrace, ?_, ?_⟩
  · intro hrc
    rw [hall hrc]
    exact DiskState.ext4Plan_length totalSectors startLba
  · intro g v w hv hw
    rw [descriptorWrite_inodes hws hw, superblockWrite_inodesPerGroup hws hv]
    decide

theorem freeInodes_differ_blank :
    ∃ s' evs, (formatExt4 0 0 2048 262152).run (blankMachine fun _ => none) = some (0, s') ∧
      s'.trace = (blankMachine fun _ => none).trace ++ evs ∧
      let ws := evs.filterMap Event.writeRequest
      ws.length = 1 + 3 * 2 ∧
      ∀ g v w, superblockWrite ws = some v → descriptorWrite ws g = some w →
        w.2.groupDesc .bgFreeInodesCountLo ≠ v.2.superblock .sInodesPerGroup := by
  obtain ⟨rc, s', evs, hrun, htrace, hlength, hdiffer⟩ :=
    freeInodes_differ 0 0 2048 262152 (blankMachine_booted fun _ => none).ready
  obtain rfl := formatExt4_blank_code (by decide) hrun
  exact ⟨s', evs, hrun, htrace, hlength rfl, hdiffer⟩

/-- The superblock has 8192 inodes in a group, the descriptor of the only group
has no free inode. -/
theorem freeInodes_of_smallest :
    ∃ s' v w, (formatExt4 0 0 2048 8192).run (blankMachine fun _ => none) = some (0, s') ∧
      superblockWrite (s'.trace.filterMap Event.writeRequest) = some v ∧
      descriptorWrite (s'.trace.filterMap Event.writeRequest) 0 = some w ∧
      v.2.superblock .sInodesPerGroup = 8192 ∧ w.2.groupDesc .bgFreeInodesCountLo = 0 := by
  obtain ⟨s', hrun, hws, -⟩ := formatExt4_blank 2048 8192 (by decide)
  have hv := superblockWrite_plan 2048 8192
  obtain ⟨w, hw⟩ := descriptorWrite_plan 2048 8192 (g := 0) (by decide)
  exact ⟨s', _, w, hrun, hws ▸ hv, hws ▸ hw, superblockWrite_inodesPerGroup (List.prefix_refl _) hv,
    descriptorWrite_inodes (List.prefix_refl _) hw⟩

/-- The blocks that the descriptor names lie in the group `g` of `n` blocks, and
its free blocks and four more make up the group. -/
def Sector.CountsGroup (x : Sector) (g n : ℕ) : Prop :=
  (∀ f ∈ [GroupDescField.bgBlockBitmapLo, .bgInodeBitmapLo, .bgInodeTableLo],
    32768 * g ≤ x.groupDesc f ∧ x.groupDesc f < 32768 * g + n) ∧
  x.groupDesc .bgFreeBlocksCountLo + 4 = n

/-- A descriptor counts its group exactly when the volume has four blocks from
the start of the group on. -/
theorem countsGroup_iff {s : Machine} (hs : s.Ready) :
    ∃ rc s' evs, (formatExt4 c d startLba totalSectors).run s = some (rc, s') ∧
      s'.trace = s.trace ++ evs ∧
      let ws := evs.filterMap Event.writeRequest
      (rc = 0 → ws.length = 1 + 3 * groupsOf totalSectors.toNat) ∧
      ∀ g w, descriptorWrite ws g = some w →
        (w.2.CountsGroup g ((ext4Geometry startLba totalSectors).blocksInGroup
          (UInt32.ofNat g)).toNat ↔ 32768 * g + 4 ≤ totalSectors.toNat / 8) := by
  obtain ⟨rc, s', evs, hrun, htrace, hws, hall, -⟩ :=
    formatExt4_requests c d startLba totalSectors hs
  refine ⟨rc, s', evs, hrun, htrace, ?_, ?_⟩
  · intro hrc
    rw [hall hrc]
    exact DiskState.ext4Plan_length totalSectors startLba
  · intro g w hw
    obtain ⟨hg, -⟩ := descriptorWrite_eq hws hw
    obtain ⟨hblock, hinode, htable, hfree⟩ := descriptorWrite_blocks hws hw
    have hpos := Tiling.piece_pos (by omega) (groupsOf_eq_count totalSectors.toNat ▸ hg)
    rw [blocksInGroup_toNat startLba totalSectors hg]
    simp only [Sector.CountsGroup, List.forall_mem_cons, List.not_mem_nil, false_imp_iff,
      implies_true, and_true, hblock, hinode, htable, hfree]
    unfold Tiling.piece at hpos ⊢
    omega

theorem countsGroup_iff_blank :
    ∃ s' evs, (formatExt4 0 0 2048 262152).run (blankMachine fun _ => none) = some (0, s') ∧
      s'.trace = (blankMachine fun _ => none).trace ++ evs ∧
      let ws := evs.filterMap Event.writeRequest
      ws.length = 1 + 3 * 2 ∧
      ∀ g w, descriptorWrite ws g = some w →
        (w.2.CountsGroup g ((ext4Geometry 2048 262152).blocksInGroup (UInt32.ofNat g)).toNat ↔
          32768 * g + 4 ≤ (262152 : UInt32).toNat / 8) := by
  obtain ⟨rc, s', evs, hrun, htrace, hlength, hcounts⟩ :=
    countsGroup_iff 0 0 2048 262152 (blankMachine_booted fun _ => none).ready
  obtain rfl := formatExt4_blank_code (by decide) hrun
  exact ⟨s', evs, hrun, htrace, hlength rfl, hcounts⟩

/-- A last group of one block: its count of free blocks is stored as 65533. -/
theorem countsGroup_of_one_block :
    ∃ s' w, (formatExt4 0 0 2048 262152).run (blankMachine fun _ => none) = some (0, s') ∧
      descriptorWrite (s'.trace.filterMap Event.writeRequest) 1 = some w ∧
      ((ext4Geometry 2048 262152).blocksInGroup 1).toNat = 1 ∧
      w.2.groupDesc .bgFreeBlocksCountLo = 65533 ∧ ¬w.2.CountsGroup 1 1 := by
  obtain ⟨s', hrun, hws, -⟩ :=
    formatExt4_blank 2048 262152 (by decide)
  obtain ⟨w, hw⟩ := descriptorWrite_plan 2048 262152 (g := 1) (by decide)
  obtain ⟨-, -, -, hfree⟩ := descriptorWrite_blocks (List.prefix_refl _) hw
  refine ⟨s', w, hrun, hws ▸ hw, by decide, hfree, ?_⟩
  rintro ⟨-, hcount⟩
  rw [hfree] at hcount
  exact absurd hcount (by decide)

end Runs

end EtyOS
