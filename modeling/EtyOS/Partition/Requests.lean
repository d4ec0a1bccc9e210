import EtyOS.Library.Tiling
import EtyOS.Partition.Trace

/-!
# The requests of `format_ext4`, in order

`format_ext4` writes the superblock first and then, for every group, the
descriptor, the block bitmap and the inode bitmap. So the place of a write in
the record says what was written, and a run that fails on the way has made the
first writes of the plan.
-/

namespace EtyOS

open Library

/-- The sector number and the data of a write, whether it succeeded or not. -/
def Event.writeRequest : Event → Option (UInt32 × Sector)
  | .write _ _ lba data _ => some (lba, data)
  | _ => none

section Order

variable (ws : List (UInt32 × Sector)) (g : ℕ)

def superblockWrite : Option (UInt32 × Sector) := ws[0]?
def descriptorWrite : Option (UInt32 × Sector) := ws[1 + 3 * g]?
def blockBitmapWrite : Option (UInt32 × Sector) := ws[2 + 3 * g]?
def inodeBitmapWrite : Option (UInt32 × Sector) := ws[3 + 3 * g]?

end Order

namespace DiskState

variable (c d : Fin 2) (k : DiskState)

/-- A list of writes is requested up to the first failure. -/
theorem writeAll_requests (plan : List (UInt32 × Sector)) :
    ∃ evs, (k.writeAll c d plan).2.trace = k.trace ++ evs ∧
      evs.filterMap Event.writeRequest <+: plan ∧
      ((k.writeAll c d plan).1 = true → evs.filterMap Event.writeRequest = plan) := by
  induction plan generalizing k with
  | nil => exact ⟨[], (List.append_nil _).symm, List.nil_prefix, fun _ => rfl⟩
  | cons w plan ih =>
    unfold writeAll
    by_cases hok : k.next.ok
    · obtain ⟨evs, htrace, hprefix, hall⟩ := ih (k.write c d w.1 w.2)
      rw [if_pos hok]
      refine ⟨.write c d w.1 w.2 true :: evs, ?_, ?_, ?_⟩
      · rw [htrace]
        simp [write, hok]
      · exact (List.prefix_cons_inj w).mpr hprefix
      · intro hdone
        exact congrArg (w :: ·) (hall hdone)
    · rw [if_neg hok]
      refine ⟨[.write c d w.1 w.2 false], ?_, ?_, ?_⟩
      · simp [write, hok]
      · exact (List.prefix_cons_inj w).mpr List.nil_prefix
      · intro hdone
        cases hdone

theorem formatExt4_requests (startLba totalSectors : UInt32) :
    ∃ evs, (k.formatExt4 c d startLba totalSectors).2.trace = k.trace ++ evs ∧
      evs.filterMap Event.writeRequest <+: ext4Plan startLba totalSectors ∧
      ((k.formatExt4 c d startLba totalSectors).1 = 0 →
        evs.filterMap Event.writeRequest = ext4Plan startLba totalSectors) := by
  unfold formatExt4
  by_cases hsize : totalSectors < 8192
  · exact ⟨[], by simp [hsize], List.nil_prefix, by simp [hsize]⟩
  · by_cases habort : k.next.abort = true
    · exact ⟨[.read c d (startLba + 2) false], by simp [hsize, habort, read], List.nil_prefix,
        by simp [hsize, habort]⟩
    · obtain ⟨evs, htrace, hprefix, hall⟩ :=
        writeAll_requests c d (k.read c d (startLba + 2)) (ext4Plan startLba totalSectors)
      rw [if_neg hsize, if_neg habort]
      refine ⟨.read c d (startLba + 2) true :: evs, ?_, hprefix, ?_⟩
      · dsimp only
        rw [htrace]
        simp [read, habort]
      · intro hdone
        apply hall
        by_contra hfail
        simp [hfail] at hdone

end DiskState

/-- A call of `format_ext4` requests the writes of its plan in order, and all of
them when it succeeds. -/
theorem formatExt4_requests (c d : Fin 2) (startLba totalSectors : UInt32) {s : Machine}
    (hs : s.Ready) :
    ∃ rc s' evs, (formatExt4 c d startLba totalSectors).run s = some (rc, s') ∧
      s'.trace = s.trace ++ evs ∧
      evs.filterMap Event.writeRequest <+: ext4Plan startLba totalSectors ∧
      (rc = 0 → evs.filterMap Event.writeRequest = ext4Plan startLba totalSectors) ∧
      s'.disk = (s.disk.formatExt4 c d startLba totalSectors).2 ∧
      rc = (s.disk.formatExt4 c d startLba totalSectors).1 := by
  obtain ⟨s', hrun, hsystem, -⟩ := formatExt4_does c d startLba totalSectors s hs
  obtain ⟨evs, htrace, hprefix, hall⟩ := s.disk.formatExt4_requests c d startLba totalSectors
  have hdisk : s'.disk = (s.disk.formatExt4 c d startLba totalSectors).2 :=
    congrArg System.disk hsystem
  exact ⟨_, s', evs, hrun, (congrArg DiskState.trace hdisk).trans htrace, hprefix, hall, hdisk, rfl⟩

/-- On a machine whose drives are in order the call succeeds. -/
theorem formatExt4_blank (startLba totalSectors : UInt32) (hsize : ¬totalSectors < 8192) :
    ∃ s', (formatExt4 0 0 startLba totalSectors).run (blankMachine fun _ => none) = some (0, s') ∧
      s'.trace.filterMap Event.writeRequest = ext4Plan startLba totalSectors ∧
      s'.disk = ((blankMachine fun _ => none).disk.formatExt4 0 0 startLba totalSectors).2 := by
  obtain ⟨rc, s', evs, hrun, htrace, -, hall, hdisk, -⟩ := formatExt4_requests 0 0 startLba
    totalSectors (blankMachine_booted fun _ => none).ready
  have hzero := formatExt4_blank_code hsize hrun
  have hempty : (blankMachine fun _ => none).trace = [] := rfl
  rw [hempty, List.nil_append] at htrace
  exact ⟨s', hzero ▸ hrun, htrace ▸ hall hzero, hdisk⟩

section Plan

variable (startLba totalSectors : UInt32)

theorem groupsPlan_getElem? (geometry : Ext4Geometry) {count g r : ℕ} (hg : g < count) (hr : r < 3)
    (group : UInt32) :
    (geometry.groupsPlan count group)[3 * g + r]? =
      (geometry.groupPlan (group + UInt32.ofNat g))[r]? := by
  induction count generalizing g group with
  | zero => omega
  | succ count ih =>
    have hlength : (geometry.groupPlan group).length = 3 := rfl
    rw [Ext4Geometry.groupsPlan]
    cases g with
    | zero =>
      rw [Nat.mul_zero, Nat.zero_add, List.getElem?_append_left (by omega)]
      simp
    | succ g =>
      have hplace : 3 * (g + 1) + r - 3 = 3 * g + r := by omega
      have hgroup : group + 1 + UInt32.ofNat g = group + UInt32.ofNat (g + 1) := by
        rw [UInt32.ofNat_add, UInt32.add_assoc, UInt32.add_comm 1]
        rfl
      rw [List.getElem?_append_right (by omega), hlength, hplace, ih (by omega), hgroup]

/-- What the plan has for a group. -/
theorem ext4Plan_getElem? {g r : ℕ} (hg : g < groupsOf totalSectors.toNat) (hr : r < 3) :
    (ext4Plan startLba totalSectors)[1 + (3 * g + r)]? =
      ((ext4Geometry startLba totalSectors).groupPlan (UInt32.ofNat g))[r]? := by
  have hgroups : (ext4Geometry startLba totalSectors).numBlockGroups.toNat =
      groupsOf totalSectors.toNat := numBlockGroups_toNat startLba totalSectors
  have hgroup := groupsPlan_getElem? (ext4Geometry startLba totalSectors) hg hr 0
  rw [UInt32.zero_add] at hgroup
  rw [ext4Plan, Nat.add_comm, List.getElem?_cons_succ, hgroups, hgroup]

theorem superblockWrite_plan :
    superblockWrite (ext4Plan startLba totalSectors) =
      some (startLba + 2, Sector.ofMemory (superblockMemory totalSectors) 0) := by
  rw [ext4Plan_eq_cons]
  rfl

theorem descriptorWrite_plan {g : ℕ} (hg : g < groupsOf totalSectors.toNat) :
    ∃ w, descriptorWrite (ext4Plan startLba totalSectors) g = some w :=
  ⟨_, ext4Plan_getElem? (r := 0) startLba totalSectors hg (by omega)⟩

variable {startLba totalSectors} {ws : List (UInt32 × Sector)} {w : UInt32 × Sector} {g : ℕ}

/-- A write that has been requested is the one the plan has in its place. -/
theorem plan_getElem?_of_prefix {plan : List (UInt32 × Sector)} (hws : ws <+: plan) {i : ℕ}
    (hw : ws[i]? = some w) : plan[i]? = some w := by
  obtain ⟨hi, rfl⟩ := List.getElem?_eq_some_iff.mp hw
  exact List.prefix_iff_getElem?.mp hws i hi

theorem superblockWrite_eq (hws : ws <+: ext4Plan startLba totalSectors)
    (hw : superblockWrite ws = some w) :
    w = (startLba + 2, Sector.ofMemory (superblockMemory totalSectors) 0) := by
  have hplan := plan_getElem?_of_prefix hws hw
  rw [ext4Plan_eq_cons] at hplan
  exact (Option.some.inj hplan).symm

theorem groupWrite_eq (hws : ws <+: ext4Plan startLba totalSectors) {r : ℕ} (hr : r < 3)
    (hw : ws[1 + (3 * g + r)]? = some w) :
    g < groupsOf totalSectors.toNat ∧
      ((ext4Geometry startLba totalSectors).groupPlan (UInt32.ofNat g))[r]? = some w := by
  have hplan := plan_getElem?_of_prefix hws hw
  obtain ⟨hlength, -⟩ := List.getElem?_eq_some_iff.mp hplan
  rw [DiskState.ext4Plan_length] at hlength
  have hg : g < groupsOf totalSectors.toNat := by
    unfold groupsOf
    omega
  exact ⟨hg, (ext4Plan_getElem? startLba totalSectors hg hr).symm.trans hplan⟩

theorem descriptorWrite_eq (hws : ws <+: ext4Plan startLba totalSectors)
    (hw : descriptorWrite ws g = some w) :
    g < groupsOf totalSectors.toNat ∧
      w = ((ext4Geometry startLba totalSectors).gdtSector (UInt32.ofNat g), Sector.ofMemory
        ((ext4Geometry startLba totalSectors).descriptorMemory (UInt32.ofNat g)) 0) := by
  obtain ⟨hg, hplan⟩ := groupWrite_eq (r := 0) hws (by omega) hw
  exact ⟨hg, (Option.some.inj hplan).symm⟩

theorem blockBitmapWrite_eq (hws : ws <+: ext4Plan startLba totalSectors)
    (hw : blockBitmapWrite ws g = some w) :
    g < groupsOf totalSectors.toNat ∧
      w = ((ext4Geometry startLba totalSectors).bitmapSector (UInt32.ofNat g),
        Sector.ofMemory blockBitmapMemory 0) := by
  have hplace : 2 + 3 * g = 1 + (3 * g + 1) := by omega
  rw [blockBitmapWrite, hplace] at hw
  obtain ⟨hg, hplan⟩ := groupWrite_eq hws (by omega) hw
  exact ⟨hg, (Option.some.inj hplan).symm⟩

theorem inodeBitmapWrite_eq (hws : ws <+: ext4Plan startLba totalSectors)
    (hw : inodeBitmapWrite ws g = some w) :
    g < groupsOf totalSectors.toNat ∧
      w = ((ext4Geometry startLba totalSectors).bitmapSector (UInt32.ofNat g) + 1,
        Sector.ofMemory zeroMemory 0) := by
  have hplace : 3 + 3 * g = 1 + (3 * g + 2) := by omega
  rw [inodeBitmapWrite, hplace] at hw
  obtain ⟨hg, hplan⟩ := groupWrite_eq hws (by omega) hw
  exact ⟨hg, (Option.some.inj hplan).symm⟩

end Plan

section Fields

/-- A field of the superblock in a sector. -/
def Sector.superblock (x : Sector) (f : SuperblockField) : ℕ :=
  ext4Superblock.get (x.toMemory zeroMemory 0) 0 f

/-- A field of the group descriptor in a sector. -/
def Sector.groupDesc (x : Sector) (f : GroupDescField) : ℕ :=
  ext4GroupDesc.get (x.toMemory zeroMemory 0) 0 f

/-- A sector shows the memory it was made from. -/
theorem Sector.ofMemory_shows (m w : Memory) :
    ((Sector.ofMemory w 0).toMemory m 0).Shows 0 512 w := by
  intro b hb
  rw [Sector.toMemory, dif_pos (by omega), Sector.ofMemory]
  simp

theorem superblock_ofMemory (w : Memory) {f : SuperblockField}
    (hf : ext4Superblock.offset f + ext4Superblock.size f ≤ 512) :
    (Sector.ofMemory w 0).superblock f = ext4Superblock.get w 0 f :=
  ext4Superblock.get_of_shows (Sector.ofMemory_shows _ w) hf

theorem groupDesc_ofMemory (w : Memory) (f : GroupDescField) :
    (Sector.ofMemory w 0).groupDesc f = ext4GroupDesc.get w 0 f := by
  have hfield := ext4GroupDesc.offset_add_size_le f
  rw [sizeof_ext4GroupDesc] at hfield
  exact ext4GroupDesc.get_of_shows (Sector.ofMemory_shows _ w) (hfield.trans (by omega))

variable (g : Ext4Geometry) (group : UInt32)

theorem descriptorFields_nodup : ((g.descriptorFields group).map Prod.fst).Nodup := by
  simp only [Ext4Geometry.descriptorFields, List.map_cons, List.map_nil]
  decide

/-- A field assigned before the inode count holds what was assigned to it. -/
theorem get_descriptorMemory {f : GroupDescField} {v : ℕ}
    (hv : (f, v) ∈ g.descriptorFields group) :
    ext4GroupDesc.get (g.descriptorMemory group) 0 f = v % 256 ^ ext4GroupDesc.size f := by
  have hmem : f ∈ (g.descriptorFields group).map Prod.fst := List.mem_map_of_mem hv
  rw [Ext4Geometry.descriptorMemory, ext4GroupDesc.get_setAll_of_not_mem,
    ext4GroupDesc.get_setAll _ _ (descriptorFields_nodup g group) hv]
  simp only [Ext4Geometry.descriptorFields, List.map_cons, List.map_nil] at hmem
  simp only [inodeFields, List.map_cons, List.map_nil]
  clear hv
  revert f
  decide

/-- The inode count of the superblock lies behind the fields of the descriptor. -/
theorem get_descriptorMemory_inodes :
    ext4GroupDesc.get (g.descriptorMemory group) 0 .bgFreeInodesCountLo = 0 := by
  have hcleared : ext4Superblock.get
      (ext4GroupDesc.setAll zeroMemory 0 (g.descriptorFields group)) 0 .sInodesPerGroup = 0 := by
    apply Memory.load_eq_zero
    intro b hb _
    have hoffset : ext4Superblock.offset .sInodesPerGroup = 40 := by decide
    apply ext4GroupDesc.setAll_apply_of_fields
    simp only [Ext4Geometry.descriptorFields, List.map_cons, List.map_nil]
    intro f hf
    right
    have hend : ext4GroupDesc.offset f + ext4GroupDesc.size f ≤ 40 := by
      revert f
      decide
    omega
  rw [Ext4Geometry.descriptorMemory, hcleared,
    ext4GroupDesc.get_setAll (v := 0) _ _ (by decide) (by simp [inodeFields]), Nat.zero_mod]

end Fields

section Groups

variable (startLba totalSectors : UInt32) {g : ℕ}

theorem groupsOf_eq_count (total : ℕ) : groupsOf total = Tiling.count 32768 (total / 8) := by
  unfold groupsOf Tiling.count
  omega

theorem groupsOf_le (total : UInt32) : groupsOf total.toNat ≤ 16384 := by
  have hlt := total.toNat_lt
  unfold groupsOf
  omega

theorem ofNat_group (hg : g < groupsOf totalSectors.toNat) : (UInt32.ofNat g).toNat = g := by
  have hle := groupsOf_le totalSectors
  exact UInt32.toNat_ofNat_of_lt' (by change g < 2 ^ 32; omega)

theorem groupFirstBlock_toNat (hg : g < groupsOf totalSectors.toNat) :
    ((ext4Geometry startLba totalSectors).groupFirstBlock (UInt32.ofNat g)).toNat = 32768 * g := by
  have hle := groupsOf_le totalSectors
  rw [Ext4Geometry.groupFirstBlock, UInt32.toNat_add, UInt32.toNat_mul, ofNat_group _ hg]
  change (0 + g * 32768 % 2 ^ 32) % 2 ^ 32 = _
  omega

/-- The groups tile the volume. -/
theorem blocksInGroup_toNat (hg : g < groupsOf totalSectors.toNat) :
    ((ext4Geometry startLba totalSectors).blocksInGroup (UInt32.ofNat g)).toNat =
      Tiling.piece 32768 (totalSectors.toNat / 8) g := by
  have hle := groupsOf_le totalSectors
  have hgroups : (ext4Geometry startLba totalSectors).numBlockGroups.toNat =
      groupsOf totalSectors.toNat := numBlockGroups_toNat startLba totalSectors
  have hblocks := totalBlocks_toNat startLba totalSectors
  have hcount := groupsOf_eq_count totalSectors.toNat
  have hstart := (Tiling.lt_count_iff (by omega)).mp (hcount ▸ hg)
  have hlast : UInt32.ofNat g = (ext4Geometry startLba totalSectors).numBlockGroups - 1 ↔
      g + 1 = groupsOf totalSectors.toNat := by
    rw [← UInt32.toNat_inj, UInt32.toNat_sub, hgroups, ofNat_group _ hg]
    change g = (2 ^ 32 - 1 + groupsOf totalSectors.toNat) % 2 ^ 32 ↔ _
    omega
  unfold Ext4Geometry.blocksInGroup
  by_cases hend : g + 1 = groupsOf totalSectors.toNat
  · rw [if_pos (hlast.mpr hend), Tiling.piece_last (by omega) (hend.trans hcount),
      UInt32.toNat_sub, hblocks, UInt32.toNat_mul, ofNat_group _ hg]
    have hlt := totalSectors.toNat_lt
    have hproduct : g * 32768 % 2 ^ 32 = 32768 * g := by omega
    change (2 ^ 32 - g * 32768 % 2 ^ 32 + totalSectors.toNat / 8) % 2 ^ 32 = _
    omega
  · have hnext : g + 1 < Tiling.count 32768 (totalSectors.toNat / 8) := by omega
    rw [if_neg fun h => hend (hlast.mp h), Tiling.piece_of_succ_lt (by omega) hnext]
    rfl

end Groups

end EtyOS
