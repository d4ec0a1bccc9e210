import EtyOS.Partition.CreateSpec

/-!
# Where a formatter writes

Every sector of a fresh volume has an offset from its start: 2 for the
superblock, and for group `g` the offset `3 + g` for its descriptor and
`(g mod 32) * 2^18` and one more for its bitmaps, because the product of the
block number and the block size is cut to 32 bits. The offsets lie below the
size of the volume, and they are distinct as long as no product is cut, which
is to say up to 32 groups.
-/

namespace EtyOS

open Library

/-- Where the descriptor and the two bitmaps of a group lie. -/
def groupOffsets (g : ℕ) : List ℕ := [3 + g, g % 32 * 2 ^ 18, g % 32 * 2 ^ 18 + 1]

/-- Where a volume of so many groups is written, in order. -/
def ext4Offsets (groups : ℕ) : List ℕ := 2 :: (List.range groups).flatMap groupOffsets

/-- The number of groups of a volume. -/
def groupsOf (totalSectors : ℕ) : ℕ := (totalSectors / 8 + 32767) / 32768

/-- Where a FAT32 volume is written: the boot sector and the start of each FAT.
The subtraction of the reserved sectors is done in 32 bits. -/
def fat32Offsets (total : ℕ) : List ℕ :=
  [0, 32, 32 + (total + (2 ^ 32 - 32)) % 2 ^ 32 / 1026 * 2]

section Offsets

variable (startLba totalSectors : UInt32)

/-- The block number is cut to 32 bits before it is divided. -/
theorem bitmapSector_toNat (group : UInt32) :
    ((ext4Geometry startLba totalSectors).bitmapSector group).toNat =
      (startLba.toNat + group.toNat % 32 * 2 ^ 18) % 2 ^ 32 := by
  have hblock : ((ext4Geometry startLba totalSectors).groupFirstBlock group *
      ext4DefaultBlockSize).toNat = group.toNat * 2 ^ 27 % 2 ^ 32 := by
    rw [Ext4Geometry.groupFirstBlock, UInt32.toNat_mul, UInt32.toNat_add, UInt32.toNat_mul]
    change (0 + group.toNat * 32768 % 2 ^ 32) % 2 ^ 32 * 4096 % 2 ^ 32 = _
    omega
  rw [Ext4Geometry.bitmapSector, UInt32.toNat_add, UInt32.toNat_div, hblock]
  change (startLba.toNat + group.toNat * 2 ^ 27 % 2 ^ 32 / 512) % 2 ^ 32 = _
  omega

theorem gdtSector_toNat (group : UInt32) :
    ((ext4Geometry startLba totalSectors).gdtSector group).toNat =
      (startLba.toNat + (3 + group.toNat)) % 2 ^ 32 := by
  rw [Ext4Geometry.gdtSector, ext4Geometry, UInt32.toNat_add, UInt32.toNat_add, UInt32.toNat_add]
  change (((startLba.toNat + 2) % 2 ^ 32 + 1) % 2 ^ 32 + group.toNat) % 2 ^ 32 = _
  omega

theorem groupPlan_sectors (group : UInt32) :
    ((ext4Geometry startLba totalSectors).groupPlan group).map (fun w => w.1.toNat) =
      (groupOffsets group.toNat).map fun o => (startLba.toNat + o) % 2 ^ 32 := by
  have hbitmap := bitmapSector_toNat startLba totalSectors group
  have hnext : ((ext4Geometry startLba totalSectors).bitmapSector group + 1).toNat =
      (startLba.toNat + (group.toNat % 32 * 2 ^ 18 + 1)) % 2 ^ 32 := by
    rw [UInt32.toNat_add, hbitmap]
    change ((startLba.toNat + group.toNat % 32 * 2 ^ 18) % 2 ^ 32 + 1) % 2 ^ 32 = _
    omega
  simp only [Ext4Geometry.groupPlan, groupOffsets, List.cons_append, List.nil_append,
    List.map_cons, List.map_nil, gdtSector_toNat, hbitmap, hnext]

theorem groupsPlan_sectors (count : ℕ) (group : UInt32) (hfit : group.toNat + count < 2 ^ 32) :
    ((ext4Geometry startLba totalSectors).groupsPlan count group).map (fun w => w.1.toNat) =
      ((List.range' group.toNat count).flatMap groupOffsets).map
        fun o => (startLba.toNat + o) % 2 ^ 32 := by
  induction count generalizing group with
  | zero => rfl
  | succ count ih =>
    have hnext : (group + 1).toNat = group.toNat + 1 := by
      rw [UInt32.toNat_add]
      change (group.toNat + 1) % 2 ^ 32 = _
      omega
    rw [Ext4Geometry.groupsPlan, List.map_append, groupPlan_sectors, ih (group + 1) (by omega),
      hnext, List.range'_succ, List.flatMap_cons, List.map_append]

/-- The sectors of a fresh volume, by their offsets. -/
theorem ext4Plan_sectors :
    (ext4Plan startLba totalSectors).map (fun w => w.1.toNat) =
      (ext4Offsets (groupsOf totalSectors.toNat)).map fun o => (startLba.toNat + o) % 2 ^ 32 := by
  have hlt := totalSectors.toNat_lt
  have hgroups : (ext4Geometry startLba totalSectors).numBlockGroups.toNat =
      groupsOf totalSectors.toNat := numBlockGroups_toNat startLba totalSectors
  have hfit : (0 : UInt32).toNat + groupsOf totalSectors.toNat < 2 ^ 32 := by
    unfold groupsOf
    change 0 + _ < _
    omega
  have hsuper : (ext4Geometry startLba totalSectors).sbSector.toNat =
      (startLba.toNat + 2) % 2 ^ 32 := by
    rw [ext4Geometry, UInt32.toNat_add]
    rfl
  rw [ext4Plan, List.map_cons, hgroups, groupsPlan_sectors startLba totalSectors _ 0 hfit, hsuper,
    ext4Offsets, List.map_cons, List.range_eq_range']
  rfl

/-- The size of a FAT; the subtraction of the reserved sectors may wrap. -/
theorem sectorsPerFat_toNat :
    (sectorsPerFat totalSectors).toNat =
      (totalSectors.toNat + (2 ^ 32 - 32)) % 2 ^ 32 / 1026 * 2 := by
  have hsub : (totalSectors - reservedSectors).toNat =
      (totalSectors.toNat + (2 ^ 32 - 32)) % 2 ^ 32 := by
    rw [UInt32.toNat_sub, Nat.add_comm]
    rfl
  rw [sectorsPerFat, UInt32.toNat_mul, UInt32.toNat_div, hsub]
  change (totalSectors.toNat + (2 ^ 32 - 32)) % 2 ^ 32 / 1026 * 2 % 2 ^ 32 = _
  omega

/-- The sectors of a fresh FAT32 volume, by their offsets. -/
theorem fat32Plan_sectors :
    (fat32Plan startLba totalSectors).map (fun w => w.1.toNat) =
      (fat32Offsets totalSectors.toNat).map fun o => (startLba.toNat + o) % 2 ^ 32 := by
  have hfat := sectorsPerFat_toNat totalSectors
  have hstart := startLba.toNat_lt
  have hfirst : (startLba + reservedSectors).toNat = (startLba.toNat + 32) % 2 ^ 32 :=
    UInt32.toNat_add _ _
  have hsecond : (startLba + reservedSectors + sectorsPerFat totalSectors).toNat =
      (startLba.toNat + (32 + (totalSectors.toNat + (2 ^ 32 - 32)) % 2 ^ 32 / 1026 * 2)) %
        2 ^ 32 := by
    rw [UInt32.toNat_add, hfirst, hfat]
    omega
  simp only [fat32Plan, fat32Offsets, List.map_cons, List.map_nil, hfirst, hsecond, Nat.add_zero,
    Nat.mod_eq_of_lt hstart]

/-- A size of whole megabytes has room for both FATs, unless it is zero. -/
theorem fat32Offsets_lt_iff {m : ℕ} (hm : m ≤ 4095) :
    (∀ o ∈ fat32Offsets (2048 * m), o < 2048 * m) ↔ m ≠ 0 := by
  simp only [fat32Offsets, List.forall_mem_cons, List.not_mem_nil, false_imp_iff, implies_true,
    and_true]
  omega

theorem ext4Offsets_tail (groups : ℕ) :
    (ext4Offsets groups).tail = (List.range groups).flatMap groupOffsets := rfl

theorem ext4Plan_eq_cons :
    ext4Plan startLba totalSectors =
      (startLba + 2, Sector.ofMemory (superblockMemory totalSectors) 0) ::
        (ext4Plan startLba totalSectors).tail := by
  rw [ext4Plan, List.tail_cons]
  simp only [ext4Geometry]

theorem map_fst_ext4Plan :
    (ext4Plan startLba totalSectors).map Prod.fst =
      (startLba + 2) :: (ext4Plan startLba totalSectors).tail.map Prod.fst := by
  rw [ext4Plan, List.map_cons, List.tail_cons]
  simp only [ext4Geometry]

theorem mem_ext4Offsets {groups o : ℕ} (ho : o ∈ ext4Offsets groups) :
    o = 2 ∨ ∃ g < groups, o = 3 + g ∨ o = g % 32 * 2 ^ 18 ∨ o = g % 32 * 2 ^ 18 + 1 := by
  rcases List.mem_cons.mp ho with rfl | ho
  · exact Or.inl rfl
  · obtain ⟨g, hg, ho⟩ := List.mem_flatMap.mp ho
    simp only [groupOffsets, List.mem_cons, List.not_mem_nil, or_false] at ho
    exact Or.inr ⟨g, List.mem_range.mp hg, ho⟩

/-- Even a cut product stays below the exact one, so no offset leaves the volume. -/
theorem ext4Offsets_lt {total o : ℕ} (hsize : 8192 ≤ total) (ho : o ∈ ext4Offsets (groupsOf total)) :
    o < total := by
  rcases mem_ext4Offsets ho with rfl | ⟨g, hg, ho⟩
  · omega
  · unfold groupsOf at hg
    omega

/-- The offsets are distinct as long as no product is cut. -/
theorem ext4Offsets_nodup_iff (groups : ℕ) : (ext4Offsets groups).Nodup ↔ groups ≤ 32 := by
  rw [ext4Offsets, List.nodup_cons, List.nodup_flatMap]
  constructor
  · rintro ⟨-, -, hapart⟩
    by_contra hmany
    -- groups 0 and 32 share their bitmaps
    have hshared := List.pairwise_iff_getElem.mp hapart 0 32 (by simp; omega) (by simp; omega)
      (by omega)
    simp [Function.onFun, groupOffsets] at hshared
  · intro hfew
    refine ⟨?_, ?_, ?_⟩
    · intro hsuper
      obtain ⟨g, hg, ho⟩ := List.mem_flatMap.mp hsuper
      have hg := List.mem_range.mp hg
      simp only [groupOffsets, List.mem_cons, List.not_mem_nil, or_false] at ho
      omega
    · intro g hg
      have hg := List.mem_range.mp hg
      simp only [groupOffsets, List.nodup_cons, List.mem_cons, List.not_mem_nil, or_false,
        not_false_eq_true, List.nodup_nil, and_true]
      omega
    · refine List.pairwise_lt_range.imp_of_mem fun {g g'} hg hg' hlt => ?_
      have hg := List.mem_range.mp hg
      have hg' := List.mem_range.mp hg'
      simp only [Function.onFun, groupOffsets, List.disjoint_cons_left, List.disjoint_nil_left,
        List.mem_cons, List.not_mem_nil, or_false, and_true]
      omega

/-- Numbering the offsets keeps them distinct if it is injective on small volumes. -/
theorem ext4Offsets_map_nodup_iff {total : ℕ} {f : ℕ → ℕ} (hsize : 8192 ≤ total)
    (hf : ∀ o < 2 ^ 23 + 8, ∀ o' < 2 ^ 23 + 8, o < total → o' < total → f o = f o' → o = o') :
    ((ext4Offsets (groupsOf total)).map f).Nodup ↔ total < 2 ^ 23 + 8 := by
  have hgroups : groupsOf total ≤ 32 ↔ total < 2 ^ 23 + 8 := by
    unfold groupsOf
    omega
  constructor
  · intro hnodup
    exact hgroups.mp ((ext4Offsets_nodup_iff _).mp (hnodup.of_map f))
  · intro hsmall
    apply ((ext4Offsets_nodup_iff _).mpr (hgroups.mpr hsmall)).map_on
    intro o ho o' ho' heq
    have hlt := ext4Offsets_lt hsize ho
    have hlt' := ext4Offsets_lt hsize ho'
    exact hf o (by omega) o' (by omega) hlt hlt' heq

/-- The sectors of a fresh volume are distinct numbers for up to 32 groups. -/
theorem ext4Plan_nodup_iff (hsize : 8192 ≤ totalSectors.toNat) :
    ((ext4Plan startLba totalSectors).map Prod.fst).Nodup ↔ totalSectors.toNat < 2 ^ 23 + 8 := by
  have hlba : ((ext4Plan startLba totalSectors).map Prod.fst).map UInt32.toNat =
      (ext4Plan startLba totalSectors).map fun w => w.1.toNat := List.map_map
  rw [← List.nodup_map_iff (fun _ _ => UInt32.toNat_inj.mp), hlba, ext4Plan_sectors]
  apply ext4Offsets_map_nodup_iff hsize
  intro o _ o' _ hlt hlt' heq
  have hbound := totalSectors.toNat_lt
  omega

/-- The drive tells the sectors apart when their numbers are distinct. -/
theorem ext4Plan_device_nodup_iff (hsize : 8192 ≤ totalSectors.toNat) :
    (((ext4Plan startLba totalSectors).map Prod.fst).map deviceLba).Nodup ↔
      totalSectors.toNat < 2 ^ 23 + 8 := by
  have hdevice : ((ext4Plan startLba totalSectors).map Prod.fst).map deviceLba =
      ((ext4Plan startLba totalSectors).map fun w => w.1.toNat).map (· % 2 ^ 28) := by
    rw [List.map_map, List.map_map]
    rfl
  rw [hdevice, ext4Plan_sectors, List.map_map]
  apply ext4Offsets_map_nodup_iff hsize
  intro o _ o' _ hlt hlt' heq
  simp only [Function.comp_apply] at heq
  omega

end Offsets

namespace Event

/-- The operation transferred its sector. -/
def Transferred : Event → Prop
  | .read _ _ _ ok => ok = true
  | .write _ _ _ _ ok => ok = true
  | .format _ _ _ _ _ _ => True

instance : DecidablePred Transferred
  | .read _ _ _ ok => inferInstanceAs (Decidable (ok = true))
  | .write _ _ _ _ ok => inferInstanceAs (Decidable (ok = true))
  | .format _ _ _ _ _ _ => inferInstanceAs (Decidable True)

/-- The sector number given to `ata_write_sector_disk`. -/
def written : Event → Option UInt32
  | .write _ _ lba _ _ => some lba
  | _ => none

/-- A write lies in the sectors from `startLba` on; other events do not matter. -/
def WritesInside (startLba totalSectors : UInt32) (e : Event) : Prop :=
  ∀ lba ∈ e.written, startLba.toNat ≤ lba.toNat ∧
    lba.toNat < startLba.toNat + totalSectors.toNat

end Event

namespace DiskState

variable (c d : Fin 2) (k : DiskState)

/-- A list of writes is recorded up to the first failure. -/
theorem writeAll_events (plan : List (UInt32 × Sector)) :
    ∃ evs, (k.writeAll c d plan).2.trace = k.trace ++ evs ∧
      (∀ e ∈ evs, ∃ w ∈ plan, ∃ ok, e = .write c d w.1 w.2 ok) ∧
      ((k.writeAll c d plan).1 = true ↔ ∀ e ∈ evs, e.Transferred) ∧
      ((k.writeAll c d plan).1 = true → evs = plan.map fun w => .write c d w.1 w.2 true) := by
  induction plan generalizing k with
  | nil => exact ⟨[], by simp [writeAll], by simp, by simp [writeAll], fun _ => rfl⟩
  | cons w plan ih =>
    unfold writeAll
    by_cases hok : k.next.ok
    · obtain ⟨evs, htrace, hops, hall, hevs⟩ := ih (k.write c d w.1 w.2)
      refine ⟨.write c d w.1 w.2 true :: evs, ?_, ?_, ?_, ?_⟩
      · rw [if_pos hok, htrace]
        simp [write, hok]
      · intro e he
        rcases List.mem_cons.mp he with rfl | he
        · exact ⟨w, by simp, true, rfl⟩
        · obtain ⟨v, hv, hform⟩ := hops e he
          exact ⟨v, by simp [hv], hform⟩
      · rw [if_pos hok, hall]
        simp [Event.Transferred]
      · intro hdone
        rw [if_pos hok] at hdone
        rw [hevs hdone, List.map_cons]
    · refine ⟨[.write c d w.1 w.2 false], ?_, ?_, ?_, ?_⟩
      · rw [if_neg hok]
        simp [write, hok]
      · intro e he
        exact ⟨w, by simp, false, by simpa using he⟩
      · rw [if_neg hok]
        simp [Event.Transferred]
      · intro hdone
        simp [hok] at hdone

/-- The first write of a list is made in any case. -/
theorem writeAll_head (w : UInt32 × Sector) (plan : List (UInt32 × Sector)) :
    ∃ evs, (k.writeAll c d (w :: plan)).2.trace =
      k.trace ++ .write c d w.1 w.2 (decide k.next.ok) :: evs := by
  unfold writeAll
  split
  · obtain ⟨evs, htrace, -⟩ := writeAll_events c d (k.write c d w.1 w.2) plan
    exact ⟨evs, by rw [htrace]; simp [write]⟩
  · exact ⟨[], rfl⟩

variable (startLba totalSectors : UInt32)

/-- What `format_ext4` does to sectors: nothing when it refuses the size, else
one read and writes of its plan, all of them when it succeeds. -/
theorem formatExt4_events :
    ∃ evs, (k.formatExt4 c d startLba totalSectors).2.trace = k.trace ++ evs ∧
      (∀ e ∈ evs, ∀ lba ∈ e.written, ¬totalSectors < 8192 ∧
        lba ∈ (ext4Plan startLba totalSectors).map Prod.fst) ∧
      ((k.formatExt4 c d startLba totalSectors).1 = 0 →
        evs.filterMap Event.written = (ext4Plan startLba totalSectors).map Prod.fst) := by
  unfold formatExt4
  by_cases hsize : totalSectors < 8192
  · exact ⟨[], by simp [hsize], by simp, by simp [hsize]⟩
  · by_cases habort : k.next.abort = true
    · refine ⟨[.read c d (startLba + 2) false], ?_, ?_, ?_⟩
      · simp [hsize, habort, read]
      · simp [Event.written]
      · simp [hsize, habort]
    · obtain ⟨evs, htrace, hops, -, hevs⟩ :=
        writeAll_events c d (k.read c d (startLba + 2)) (ext4Plan startLba totalSectors)
      refine ⟨.read c d (startLba + 2) true :: evs, ?_, ?_, ?_⟩
      · rw [if_neg hsize, if_neg habort]
        dsimp only
        rw [htrace]
        simp [read, habort]
      · intro e he lba hlba
        rcases List.mem_cons.mp he with rfl | he
        · simp [Event.written] at hlba
        · obtain ⟨w, hw, ok, rfl⟩ := hops e he
          obtain rfl : w.1 = lba := by simpa [Event.written] using hlba
          exact ⟨hsize, List.mem_map_of_mem hw⟩
      · intro hdone
        have hall : ((k.read c d (startLba + 2)).writeAll c d
            (ext4Plan startLba totalSectors)).1 = true := by
          by_contra hfail
          simp [hsize, habort, hfail] at hdone
        rw [hevs hall, List.filterMap_cons, List.filterMap_map]
        exact congrFun List.filterMap_eq_map _

/-- A drive that serves every operation lets an accepted size succeed. -/
theorem formatExt4_served (hsize : ¬totalSectors < 8192) (hserved : ∀ j, (k.answers j).ok) :
    (k.formatExt4 c d startLba totalSectors).1 = 0 := by
  have hread : k.next.abort = false := (hserved k.issued).1
  have hall : ((k.read c d (startLba + 2)).writeAll c d (ext4Plan startLba totalSectors)).1 =
      true := (writeAll_ok_iff _).mpr fun i _ => hserved _
  simp [formatExt4, hsize, hread, hall]

/-- A creation gets to its formatter when the MBR is read, has a free slot and is written. -/
def CallsFormatter : Prop :=
  k.next.abort = false ∧ (k.media c d 0).freeSlot ≠ none ∧ (k.read c d 0).next.ok

variable (fs : FileSystemType)

/-- The record before the call of the formatter has the read and the write of the MBR. -/
theorem create_of_calls (h : k.CallsFormatter c d) :
    ∃ k' i, (k.media c d 0).freeSlot = some i ∧
      k' = (k.read c d 0).write c d 0 ((k.media c d 0).fillSlot i fs.code startLba totalSectors) ∧
      k.create fs c d startLba totalSectors = k'.format fs c d startLba totalSectors ∧
      k'.trace = k.trace ++ [.read c d 0 true, .write c d 0
        ((k.media c d 0).fillSlot i fs.code startLba totalSectors) true] := by
  obtain ⟨hread, hslot, hwrite⟩ := h
  obtain ⟨i, hi⟩ := Option.ne_none_iff_exists'.mp hslot
  refine ⟨_, i, hi, rfl, ?_, ?_⟩
  · simp [create, hread, hi, hwrite]
  · rw [write, decide_eq_true hwrite]
    simp [read, hread]

/-- Otherwise nothing comes after the read and the write of the MBR. -/
theorem create_of_not_calls (h : ¬k.CallsFormatter c d) :
    ∃ evs, (k.create fs c d startLba totalSectors).trace = k.trace ++ evs ∧ evs.length ≤ 2 := by
  unfold create
  split
  · exact ⟨_, rfl, by simp⟩
  · rename_i hread
    split
    · exact ⟨_, rfl, by simp⟩
    · rename_i i hslot
      have hwrite : ¬(k.read c d 0).next.ok := fun hok =>
        h ⟨Bool.eq_false_iff.mpr hread, by simp [hslot], hok⟩
      simp only [hwrite, if_false]
      exact ⟨_, List.append_assoc _ _ _, by simp⟩

end DiskState

section FormatExt4

variable (c d : Fin 2) (startLba totalSectors : UInt32)

/-- `format_ext4` writes inside its partition only: whatever the size, the
contents of the disks and the operations that fail. -/
theorem formatExt4_writes_inside (hfit : startLba.toNat + totalSectors.toNat ≤ 2 ^ 32)
    {s : Machine} (hs : s.Ready) :
    ∃ rc s' evs, (formatExt4 c d startLba totalSectors).run s = some (rc, s') ∧
      s'.trace = s.trace ++ evs ∧ ∀ e ∈ evs, e.WritesInside startLba totalSectors := by
  obtain ⟨s', hrun, hsystem, -⟩ := formatExt4_does c d startLba totalSectors s hs
  obtain ⟨evs, htrace, hwrites, -⟩ := s.disk.formatExt4_events c d startLba totalSectors
  refine ⟨_, s', evs, hrun, (congrArg (fun t => t.disk.trace) hsystem).trans htrace, ?_⟩
  intro e he lba hlba
  obtain ⟨hsize, hmem⟩ := hwrites e he lba hlba
  rw [UInt32.lt_iff_toNat_lt] at hsize
  have hlarge : 8192 ≤ totalSectors.toNat := Nat.le_of_not_lt hsize
  have hsector : lba.toNat ∈ (ext4Plan startLba totalSectors).map fun w => w.1.toNat := by
    obtain ⟨w, hw, rfl⟩ := List.mem_map.mp hmem
    exact List.mem_map_of_mem (f := fun w : UInt32 × Sector => w.1.toNat) hw
  rw [ext4Plan_sectors] at hsector
  obtain ⟨o, ho, hlba⟩ := List.mem_map.mp hsector
  have hlt := ext4Offsets_lt hlarge ho
  omega

theorem formatExt4_writes_inside_blank :
    ∃ rc s' evs, (formatExt4 0 0 2048 8192).run (blankMachine fun _ => none) = some (rc, s') ∧
      s'.trace = (blankMachine fun _ => none).trace ++ evs ∧
      ∀ e ∈ evs, e.WritesInside 2048 8192 :=
  formatExt4_writes_inside 0 0 2048 8192 (by decide) (blankMachine_booted _).ready

/-- The sectors of a fresh volume are pairwise distinct exactly when it has
less than 2^23 + 8 sectors, as numbers given to the driver and as sectors of
the drive alike. -/
theorem ext4_sectors_distinct_iff (hsize : 8192 ≤ totalSectors.toNat) {s : Machine}
    (hs : s.Ready) :
    ∃ rc s' evs, (formatExt4 c d startLba totalSectors).run s = some (rc, s') ∧
      s'.trace = s.trace ++ evs ∧ (rc = 0 →
        ((evs.filterMap Event.written).Nodup ↔ totalSectors.toNat < 2 ^ 23 + 8) ∧
        (((evs.filterMap Event.written).map deviceLba).Nodup ↔
          totalSectors.toNat < 2 ^ 23 + 8)) := by
  obtain ⟨s', hrun, hsystem, -⟩ := formatExt4_does c d startLba totalSectors s hs
  obtain ⟨evs, htrace, -, hdone⟩ := s.disk.formatExt4_events c d startLba totalSectors
  refine ⟨_, s', evs, hrun, (congrArg (fun t => t.disk.trace) hsystem).trans htrace, ?_⟩
  intro hrc
  rw [hdone hrc]
  exact ⟨ext4Plan_nodup_iff startLba totalSectors hsize,
    ext4Plan_device_nodup_iff startLba totalSectors hsize⟩

/-- On a machine whose drives are in order every call that is not too small succeeds. -/
theorem formatExt4_blank_code {startLba totalSectors : UInt32} (hsize : ¬totalSectors < 8192)
    {rc : ℤ} {s' : Machine}
    (hrun : (formatExt4 0 0 startLba totalSectors).run (blankMachine fun _ => none) = some (rc, s')) :
    rc = 0 := by
  have hready := (blankMachine_booted fun _ => none).ready
  obtain ⟨s₁, hrun₁, -⟩ := formatExt4_does 0 0 startLba totalSectors _ hready
  obtain ⟨rfl, -⟩ := Prod.mk.inj (Option.some.inj (hrun.symm.trans hrun₁))
  exact DiskState.formatExt4_served 0 0 _ startLba totalSectors hsize fun _ => ⟨rfl, rfl⟩

/-- Two groups, the second of one block. -/
theorem ext4_sectors_distinct_blank :
    ∃ s' evs, (formatExt4 0 0 2048 262152).run (blankMachine fun _ => none) = some (0, s') ∧
      s'.trace = (blankMachine fun _ => none).trace ++ evs ∧
      ((evs.filterMap Event.written).Nodup ↔ (262152 : UInt32).toNat < 2 ^ 23 + 8) ∧
      (((evs.filterMap Event.written).map deviceLba).Nodup ↔
        (262152 : UInt32).toNat < 2 ^ 23 + 8) := by
  obtain ⟨rc, s', evs, hrun, htrace, hdistinct⟩ :=
    ext4_sectors_distinct_iff 0 0 2048 262152 (by decide) (blankMachine_booted fun _ => none).ready
  obtain rfl := formatExt4_blank_code (by decide) hrun
  exact ⟨s', evs, hrun, htrace, hdistinct rfl⟩

/-- With 33 groups the bitmaps of group 32 replace those of group 0. -/
theorem ext4_sectors_shared :
    ∃ s', (formatExt4 0 0 2048 8388616).run (blankMachine fun _ => none) = some (0, s') ∧
      ¬(s'.trace.filterMap Event.written).Nodup := by
  have hready := (blankMachine_booted fun _ => none).ready
  obtain ⟨s', hrun, hsystem, -⟩ := formatExt4_does 0 0 2048 8388616 _ hready
  obtain ⟨evs, htrace, -, hdone⟩ :=
    (blankMachine fun _ => none).disk.formatExt4_events 0 0 2048 8388616
  have hzero := formatExt4_blank_code (by decide) hrun
  have htrace' : s'.trace = evs := (congrArg (fun t => t.disk.trace) hsystem).trans htrace
  refine ⟨s', ?_, ?_⟩
  · rw [hrun]
    exact congrArg (fun rc => some (rc, s')) hzero
  · rw [htrace', hdone hzero, ext4Plan_nodup_iff 2048 8388616 (by decide)]
    decide

end FormatExt4

end EtyOS
