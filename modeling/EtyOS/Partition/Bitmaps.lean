import EtyOS.Partition.GroupCounts
import EtyOS.Partition.Volume

/-!
# Where the bitmaps are and what is in them

A descriptor names the block of each bitmap, which is eight sectors, but the
formatter writes one sector for each, side by side. The inode bitmap is never
where the descriptor says. Of a block bitmap two sectors are written; in the
first group the superblock and the descriptors follow them, in another group
what was on the disk before.
-/

namespace EtyOS

open Library

section Places

variable (c d : Fin 2) (startLba totalSectors : UInt32)

/-- The block bitmap is where the descriptor says for 32 groups, the inode
bitmap for none. -/
theorem bitmaps_where_named (hfit : startLba.toNat + totalSectors.toNat ≤ 2 ^ 32) {s : Machine}
    (hs : s.Ready) :
    ∃ rc s' evs, (formatExt4 c d startLba totalSectors).run s = some (rc, s') ∧
      s'.trace = s.trace ++ evs ∧
      let ws := evs.filterMap Event.writeRequest
      (rc = 0 → ws.length = 1 + 3 * groupsOf totalSectors.toNat) ∧
      (∀ g w b, descriptorWrite ws g = some w → blockBitmapWrite ws g = some b →
        (b.1.toNat = startLba.toNat + 8 * w.2.groupDesc .bgBlockBitmapLo ↔ g < 32)) ∧
      ∀ g w i, descriptorWrite ws g = some w → inodeBitmapWrite ws g = some i →
        i.1.toNat ≠ startLba.toNat + 8 * w.2.groupDesc .bgInodeBitmapLo := by
  obtain ⟨rc, s', evs, hrun, htrace, hws, hall, -⟩ :=
    formatExt4_requests c d startLba totalSectors hs
  refine ⟨rc, s', evs, hrun, htrace, ?_, ?_, ?_⟩
  · intro hrc
    rw [hall hrc]
    exact DiskState.ext4Plan_length totalSectors startLba
  · intro g w b hw hb
    obtain ⟨hg, rfl⟩ := blockBitmapWrite_eq hws hb
    obtain ⟨hblock, -⟩ := descriptorWrite_blocks hws hw
    obtain ⟨-, hsector, -⟩ := groupPlan_offsets startLba hg
    have hstart := (Tiling.lt_count_iff (by omega)).mp (groupsOf_eq_count totalSectors.toNat ▸ hg)
    rw [hblock, hsector]
    omega
  · intro g w i hw hi
    obtain ⟨hg, rfl⟩ := inodeBitmapWrite_eq hws hi
    obtain ⟨-, hinode, -⟩ := descriptorWrite_blocks hws hw
    obtain ⟨-, -, hsector⟩ := groupPlan_offsets startLba hg
    rw [hinode, hsector]
    omega

/-- Two groups, the second of one block. -/
theorem bitmaps_where_named_blank :
    ∃ s' evs, (formatExt4 0 0 2048 262152).run (blankMachine fun _ => none) = some (0, s') ∧
      s'.trace = (blankMachine fun _ => none).trace ++ evs ∧
      let ws := evs.filterMap Event.writeRequest
      ws.length = 1 + 3 * 2 ∧
      (∀ g w b, descriptorWrite ws g = some w → blockBitmapWrite ws g = some b →
        (b.1.toNat = (2048 : UInt32).toNat + 8 * w.2.groupDesc .bgBlockBitmapLo ↔ g < 32)) ∧
      ∀ g w i, descriptorWrite ws g = some w → inodeBitmapWrite ws g = some i →
        i.1.toNat ≠ (2048 : UInt32).toNat + 8 * w.2.groupDesc .bgInodeBitmapLo := by
  obtain ⟨rc, s', evs, hrun, htrace, hlength, hblocks, hinodes⟩ :=
    bitmaps_where_named 0 0 2048 262152 (by decide) (blankMachine_booted fun _ => none).ready
  obtain rfl := formatExt4_blank_code (by decide) hrun
  exact ⟨s', evs, hrun, htrace, hlength rfl, hblocks, hinodes⟩

/-- The inode bitmap of the only group is in sector 2049, its block starts at 2056. -/
theorem inodeBitmap_of_smallest :
    ∃ s' w i, (formatExt4 0 0 2048 8192).run (blankMachine fun _ => none) = some (0, s') ∧
      descriptorWrite (s'.trace.filterMap Event.writeRequest) 0 = some w ∧
      inodeBitmapWrite (s'.trace.filterMap Event.writeRequest) 0 = some i ∧
      i.1 = 2049 ∧ 2048 + 8 * w.2.groupDesc .bgInodeBitmapLo = 2056 := by
  obtain ⟨s', hrun, hws, -⟩ := formatExt4_blank 2048 8192 (by decide)
  obtain ⟨w, hw⟩ := descriptorWrite_plan 2048 8192 (g := 0) (by decide)
  obtain ⟨-, hinode, -⟩ := descriptorWrite_blocks (List.prefix_refl _) hw
  have hi : inodeBitmapWrite (ext4Plan 2048 8192) 0 = _ :=
    ext4Plan_getElem? (g := 0) (r := 2) 2048 8192 (by decide) (by omega)
  refine ⟨s', w, _, hrun, hws ▸ hw, hws ▸ hi, by decide, ?_⟩
  rw [hinode]

end Places

section Contents

/-- A bit of the block of 4096 bytes with this number. -/
def blockBit (m : Memory) (block bit : ℕ) : Bool :=
  (m (4096 * block + bit / 8)).toNat.testBit (bit % 8)

/-- Of the first `n` bits of the block the first four are set and no other. -/
def FreshBitmap (m : Memory) (block n : ℕ) : Prop :=
  ∀ bit < n, blockBit m block bit = decide (bit < 4)

variable {c d : Fin 2} {startLba totalSectors : UInt32} {k : DiskState}

/-- A bit of the bitmap of the group `g`, by its sector and the byte in it. -/
theorem blockBit_eq (m : Memory) {g q bit : ℕ} (hq : bit / 4096 = q) :
    blockBit m (32768 * g) bit =
      (m (512 * (g * 2 ^ 18 + q) + bit / 8 % 512)).toNat.testBit (bit % 8) := by
  have haddress : 4096 * (32768 * g) + bit / 8 = 512 * (g * 2 ^ 18 + q) + bit / 8 % 512 := by
    omega
  rw [blockBit, haddress]

/-- The first sector of a block bitmap. -/
theorem blockBitmapMemory_bit {bit : ℕ} (hbit : bit < 4096) :
    (blockBitmapMemory (bit / 8 % 512)).toNat.testBit (bit % 8) = decide (bit < 4) := by
  by_cases hfirst : bit / 8 = 0
  · have hlow : ∀ i < 8, (0x0F : ℕ).testBit i = decide (i < 4) := by decide
    have hsmall : bit % 8 = bit := by omega
    rw [hfirst, Nat.zero_mod, blockBitmapMemory, Function.update_self, hsmall]
    exact hlow bit (by omega)
  · have hother : bit / 8 % 512 ≠ 0 := by omega
    rw [blockBitmapMemory, Function.update_of_ne hother, decide_eq_false (by omega)]
    exact Nat.zero_testBit _

/-- The two sectors of a bitmap that are written, for the first 32 groups. -/
theorem blockBit_written (hdone : (k.formatExt4 c d startLba totalSectors).1 = 0) {g bit : ℕ}
    (hg : g < groupsOf totalSectors.toNat) (hlow : g < 32) (hbit : bit < 8192) :
    blockBit (volume ((k.formatExt4 c d startLba totalSectors).2.media c d) startLba) (32768 * g)
      bit = decide (bit < 4) := by
  have hplace : g * 2 ^ 18 = g % 32 * 2 ^ 18 := by omega
  have hbyte : bit / 8 % 512 < 512 := Nat.mod_lt _ (by omega)
  by_cases hfirst : bit < 4096
  · have hsector := formatted_sector (o := g * 2 ^ 18) hdone (.blockBitmap g hg hplace)
      fun y hy => hy.eq_blockBitmap
    rw [blockBit_eq _ (by omega : bit / 4096 = 0), Nat.add_zero, volume_of_sector hsector hbyte]
    exact blockBitmapMemory_bit hfirst
  · have hsector := formatted_sector (o := g * 2 ^ 18 + 1) hdone
      (.inodeBitmap g hg (by rw [hplace])) fun y hy => hy.eq_inodeBitmap
    rw [blockBit_eq _ (by omega : bit / 4096 = 1), volume_of_sector hsector hbyte,
      decide_eq_false (by omega)]
    exact Nat.zero_testBit _

/-- The superblock is in the third sector of the first bitmap. -/
theorem blockBit_superblock (hdone : (k.formatExt4 c d startLba totalSectors).1 = 0) {j : ℕ}
    (hj : j < 4096) :
    blockBit (volume ((k.formatExt4 c d startLba totalSectors).2.media c d) startLba) 0 (8192 + j) =
      (superblockMemory totalSectors (j / 8)).toNat.testBit (j % 8) := by
  have hsector := formatted_sector hdone (.superblock rfl) fun y hy => hy.eq_superblock
  have hsecond : (8192 + j) / 4096 = 2 := by omega
  have hbyte : (8192 + j) / 8 % 512 = j / 8 := by omega
  have hbit : (8192 + j) % 8 = j % 8 := by omega
  rw [← Nat.mul_zero 32768, blockBit_eq _ hsecond, Nat.zero_mul, Nat.zero_add,
    volume_of_sector hsector (Nat.mod_lt _ (by omega)), hbyte, hbit]

/-- With one group the superblock starts with the bytes 0 and 0x20 of its 8192 inodes. -/
theorem superblockMemory_inodes (hsize : 8192 ≤ totalSectors.toNat)
    (hgroups : groupsOf totalSectors.toNat = 1) :
    superblockMemory totalSectors 0 = 0 ∧ superblockMemory totalSectors 1 = 0x20 := by
  have hinodes := (superblockMemory_exact totalSectors hsize).inodes
  have hplace : ext4Superblock.offset .sInodesCount = 0 := by decide
  have hfour : ext4Superblock.size .sInodesCount = 4 := by decide
  have hfirst := (superblockMemory totalSectors 0).toNat_lt
  have hsecond := (superblockMemory totalSectors 1).toNat_lt
  rw [Layout.get, hplace, hfour, hgroups] at hinodes
  simp only [Memory.load, Nat.add_zero, Nat.zero_add] at hinodes
  constructor
  · apply UInt8.toNat_inj.mp
    change _ = 0
    omega
  · apply UInt8.toNat_inj.mp
    change _ = 32
    omega

/-- The magic number sets a bit of the superblock whatever the size. -/
theorem superblockMemory_magic : (superblockMemory totalSectors 56).toNat = 0x53 := by
  have hmagic := get_superblockMemory totalSectors (f := .sMagic) (v := ext4Magic)
    (by simp [superblockFields])
  have hplace : ext4Superblock.offset .sMagic = 56 := by decide
  have htwo : ext4Superblock.size .sMagic = 2 := by decide
  have hbyte := (superblockMemory totalSectors 56).toNat_lt
  rw [Layout.get, hplace, htwo] at hmagic
  simp only [Memory.load, Nat.zero_add] at hmagic
  change _ = 0xEF53 % 65536 at hmagic
  omega

/-- A volume that is small enough has one group and a right bitmap. -/
theorem freshBitmap_of_small (hdone : (k.formatExt4 c d startLba totalSectors).1 = 0)
    (hsize : 8192 ≤ totalSectors.toNat) {n : ℕ} (hsmall : totalSectors.toNat / 8 ≤ 8205)
    (hn : n ≤ totalSectors.toNat / 8) :
    FreshBitmap (volume ((k.formatExt4 c d startLba totalSectors).2.media c d) startLba) 0 n := by
  have hgroups : groupsOf totalSectors.toNat = 1 := by
    unfold groupsOf
    omega
  obtain ⟨hzero, hone⟩ := superblockMemory_inodes hsize hgroups
  have hclear : ∀ j < 13, ((if j / 8 = 0 then 0 else 0x20 : UInt8)).toNat.testBit (j % 8) = false := by
    decide
  intro bit hbit
  by_cases hwritten : bit < 8192
  · exact blockBit_written (g := 0) hdone (by omega) (by omega) hwritten
  · obtain ⟨j, rfl⟩ := Nat.exists_eq_add_of_le (Nat.le_of_not_lt hwritten)
    have hbyte : superblockMemory totalSectors (j / 8) = if j / 8 = 0 then 0 else 0x20 := by
      by_cases hfirst : j / 8 = 0
      · rw [hfirst, hzero, if_pos rfl]
      · have hsecond : j / 8 = 1 := by omega
        rw [hsecond, hone, if_neg (by omega)]
    rw [blockBit_superblock hdone (by omega), hbyte, hclear j (by omega), decide_eq_false (by omega)]

/-- A larger volume has a bit of the superblock among those of its first group. -/
theorem not_freshBitmap_of_large (hdone : (k.formatExt4 c d startLba totalSectors).1 = 0)
    (hlarge : 8206 ≤ totalSectors.toNat / 8) :
    ¬FreshBitmap (volume ((k.formatExt4 c d startLba totalSectors).2.media c d) startLba) 0
      (Tiling.piece 32768 (totalSectors.toNat / 8) 0) := by
  intro hfresh
  unfold Tiling.piece at hfresh
  by_cases hmagic : 8640 < totalSectors.toNat / 8
  · have hbit := hfresh (8192 + 448) (by omega)
    rw [blockBit_superblock hdone (by omega)] at hbit
    change (superblockMemory totalSectors 56).toNat.testBit 0 = false at hbit
    rw [superblockMemory_magic] at hbit
    cases hbit
  · have hgroups : groupsOf totalSectors.toNat = 1 := by
      unfold groupsOf
      omega
    have hbit := hfresh (8192 + 13) (by omega)
    rw [blockBit_superblock hdone (by omega)] at hbit
    change (superblockMemory totalSectors 1).toNat.testBit 5 = false at hbit
    rw [(superblockMemory_inodes (by omega) hgroups).2] at hbit
    cases hbit

end Contents

section Fresh

variable (c d : Fin 2) (startLba totalSectors : UInt32)

/-- After a successful call every group of at least four blocks has a right
block bitmap, exactly when the volume has no more than 8205 blocks. Whatever
was on the disk makes no difference to that: in a larger volume the superblock
is in the bitmap of the first group. -/
theorem blockBitmaps_fresh_iff (hsize : 8192 ≤ totalSectors.toNat) {s : Machine} (hs : s.Ready) :
    ∃ rc s' evs, (formatExt4 c d startLba totalSectors).run s = some (rc, s') ∧
      s'.trace = s.trace ++ evs ∧ (rc = 0 →
        let ws := evs.filterMap Event.writeRequest
        let blocks := fun g =>
          ((ext4Geometry startLba totalSectors).blocksInGroup (UInt32.ofNat g)).toNat
        ws.length = 1 + 3 * groupsOf totalSectors.toNat ∧
        ((∀ g w, descriptorWrite ws g = some w → 4 ≤ blocks g →
          FreshBitmap (volume (s'.bus.media c d) startLba) (w.2.groupDesc .bgBlockBitmapLo)
            (blocks g)) ↔ totalSectors.toNat / 8 ≤ 8205)) := by
  obtain ⟨rc, s', evs, hrun, htrace, hws, hall, hdisk, hrc⟩ :=
    formatExt4_requests c d startLba totalSectors hs
  refine ⟨rc, s', evs, hrun, htrace, ?_⟩
  intro hzero
  have hdone : (s.disk.formatExt4 c d startLba totalSectors).1 = 0 := hrc.symm.trans hzero
  have hmedia : s'.bus.media = (s.disk.formatExt4 c d startLba totalSectors).2.media :=
    congrArg DiskState.media hdisk
  have hfirst : 0 < groupsOf totalSectors.toNat := groupsOf_pos totalSectors hsize
  dsimp only
  rw [hall hzero, hmedia]
  refine ⟨DiskState.ext4Plan_length totalSectors startLba, ?_⟩
  constructor
  · intro hfresh
    by_contra hlarge
    obtain ⟨w, hw⟩ := descriptorWrite_plan startLba totalSectors hfirst
    have hblock := (descriptorWrite_blocks (List.prefix_refl _) hw).1
    have hblocks := blocksInGroup_toNat startLba totalSectors hfirst
    have hgroup := hfresh 0 w hw
    rw [hblock, hblocks] at hgroup
    refine not_freshBitmap_of_large hdone (by omega) (hgroup ?_)
    unfold Tiling.piece
    omega
  · intro hsmall g w hw _
    obtain ⟨hg, -⟩ := descriptorWrite_eq (List.prefix_refl _) hw
    have hblock := (descriptorWrite_blocks (List.prefix_refl _) hw).1
    obtain rfl : g = 0 := by
      unfold groupsOf at hg
      omega
    rw [hblock, blocksInGroup_toNat startLba totalSectors hg]
    apply freshBitmap_of_small hdone hsize hsmall
    unfold Tiling.piece
    omega

/-- Two groups: the volume is larger than 8205 blocks, so one of its bitmaps is not fresh. -/
theorem blockBitmaps_fresh_iff_blank :
    ∃ s' evs, (formatExt4 0 0 2048 262152).run (blankMachine fun _ => none) = some (0, s') ∧
      s'.trace = (blankMachine fun _ => none).trace ++ evs ∧
      let ws := evs.filterMap Event.writeRequest
      let blocks := fun g => ((ext4Geometry 2048 262152).blocksInGroup (UInt32.ofNat g)).toNat
      ws.length = 1 + 3 * 2 ∧
      ((∀ g w, descriptorWrite ws g = some w → 4 ≤ blocks g →
        FreshBitmap (volume (s'.bus.media 0 0) 2048) (w.2.groupDesc .bgBlockBitmapLo)
          (blocks g)) ↔ (262152 : UInt32).toNat / 8 ≤ 8205) := by
  obtain ⟨rc, s', evs, hrun, htrace, hfresh⟩ :=
    blockBitmaps_fresh_iff 0 0 2048 262152 (by decide) (blankMachine_booted fun _ => none).ready
  obtain rfl := formatExt4_blank_code (by decide) hrun
  exact ⟨s', evs, hrun, htrace, hfresh rfl⟩

/-- A volume of 128 MB on a blank disk: the magic number marks block 8640 as used. -/
theorem blockBitmap_of_full_group :
    ∃ s' w, (formatExt4 0 0 2048 262144).run (blankMachine fun _ => none) = some (0, s') ∧
      descriptorWrite (s'.trace.filterMap Event.writeRequest) 0 = some w ∧
      ((ext4Geometry 2048 262144).blocksInGroup 0).toNat = 32768 ∧
      blockBit (volume (s'.bus.media 0 0) 2048) (w.2.groupDesc .bgBlockBitmapLo) 8640 = true := by
  obtain ⟨s', hrun, hws, hdisk⟩ :=
    formatExt4_blank 2048 262144 (by decide)
  have hdone : ((blankMachine fun _ => none).disk.formatExt4 0 0 2048 262144).1 = 0 :=
    DiskState.formatExt4_served 0 0 _ 2048 262144 (by decide) fun _ => ⟨rfl, rfl⟩
  have hmedia := congrArg DiskState.media hdisk
  rw [Machine.disk_media] at hmedia
  obtain ⟨w, hw⟩ := descriptorWrite_plan 2048 262144 (g := 0) (by decide)
  have hblock := (descriptorWrite_blocks (List.prefix_refl _) hw).1
  refine ⟨s', w, hrun, hws ▸ hw, by decide, ?_⟩
  rw [hmedia, hblock]
  have hbit := blockBit_superblock (j := 448) hdone (by omega)
  change blockBit _ 0 8640 = (superblockMemory 262144 56).toNat.testBit 0 at hbit
  rw [superblockMemory_magic] at hbit
  exact hbit

end Fresh

end EtyOS
