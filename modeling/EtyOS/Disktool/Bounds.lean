import EtyOS.Disktool.Outcome

/-!
# Whether the FAT32 formatter stays in its partition

`create_partition_mb` checks the size against the disk only from above. For a
size of 0 the formatter gets 0 sectors, and the number of sectors of a FAT is
computed from the wrapped difference of 0 and the reserved sectors.
-/

namespace EtyOS

open Library

/-- What has been recorded after the read and the write of the MBR: the
operations of the formatter that a creation calls. -/
def Machine.formatterEvents (s s' : Machine) : List Event := (s.newEvents s').drop 2

/-- The command passes its checks and gets to its formatter. -/
def CallsFormatter (s : Machine) (k : Command) : Prop :=
  s.system.creation k ≠ none ∧
    s.disk.CallsFormatter s.selected.controller s.selected.drive

section Fat32

variable {s s' : Machine} (c d : Fin 2)

/-- The writes of the formatter lie in the partition unless it has no sectors. -/
theorem formatFat32_inside_iff (k : DiskState) {m : UInt32} (hm : m.toNat ≤ 4095) :
    ∃ evs, (k.formatFat32 c d 2048 (mbToSectors m)).2.trace = k.trace ++ evs ∧
      ((∀ e ∈ evs, e.WritesInside 2048 (mbToSectors m)) ↔ m ≠ 0) := by
  have hsize := mbToSectors_toNat hm
  obtain ⟨evs, htrace, hops, -⟩ :=
    DiskState.writeAll_events c d k (fat32Plan 2048 (mbToSectors m))
  refine ⟨evs, htrace, ?_⟩
  constructor
  · -- the boot sector is written in any case, to the first sector of the partition
    rintro hinside rfl
    obtain ⟨evs', hfirst⟩ := DiskState.writeAll_head c d k
      (2048, Sector.ofMemory (bootSectorMemory 2048 (mbToSectors 0)) 0)
      (fat32Plan 2048 (mbToSectors 0)).tail
    have hevs := List.append_cancel_left (htrace.symm.trans hfirst)
    have hlow := hinside _ (by rw [hevs]; exact List.mem_cons_self) 2048 rfl
    exact absurd hlow (by decide)
  · intro hne e he lba hlba
    obtain ⟨w, hw, ok, rfl⟩ := hops e he
    obtain rfl : w.1 = lba := by simpa [Event.written] using hlba
    have hsector : w.1.toNat ∈ (fat32Plan 2048 (mbToSectors m)).map fun w => w.1.toNat :=
      List.mem_map_of_mem (f := fun w : UInt32 × Sector => w.1.toNat) hw
    rw [fat32Plan_sectors, hsize] at hsector
    obtain ⟨o, ho, hlba⟩ := List.mem_map.mp hsector
    have hpos : m.toNat ≠ 0 := fun h => hne (UInt32.toNat_inj.mp h)
    have hlt := (fat32Offsets_lt_iff hm).mpr hpos o ho
    change (2048 + o) % 2 ^ 32 = w.1.toNat at hlba
    change 2048 ≤ w.1.toNat ∧ w.1.toNat < 2048 + _
    omega

theorem formatterEvents_of_calls {m : UInt32}
    (hcalls : s.disk.CallsFormatter s.selected.controller s.selected.drive)
    (hdisk : s'.disk = s.disk.create .fat32 s.selected.controller s.selected.drive 2048
      (mbToSectors m)) (hm : m.toNat ≤ 4095) :
    (∀ e ∈ s.formatterEvents s', e.WritesInside 2048 (mbToSectors m)) ↔ m ≠ 0 := by
  obtain ⟨k', i, -, -, hformat, htrace⟩ := s.disk.create_of_calls s.selected.controller
    s.selected.drive 2048 (mbToSectors m) .fat32 hcalls
  obtain ⟨evs, hevs, hiff⟩ :=
    formatFat32_inside_iff s.selected.controller s.selected.drive k' hm
  have hfinal : s'.disk.trace = s.disk.trace ++ ([.read s.selected.controller s.selected.drive 0
      true, .write s.selected.controller s.selected.drive 0 ((s.disk.media s.selected.controller
        s.selected.drive 0).fillSlot i (FileSystemType.code .fat32) 2048 (mbToSectors m)) true] ++
      (evs ++ [.format .fat32 s.selected.controller s.selected.drive 2048 (mbToSectors m)
        (k'.formatter .fat32 s.selected.controller s.selected.drive 2048 (mbToSectors m)).1])) := by
    rw [hdisk, hformat, DiskState.format, DiskState.log, DiskState.formatter, hevs, htrace]
    simp
  rw [Machine.formatterEvents, Machine.newEvents_of_append hfinal]
  change (∀ e ∈ evs ++ [_], _) ↔ _
  rw [List.forall_mem_append, hiff]
  simp [Event.WritesInside, Event.written]

/-- `create_partition_mb` comes back. For a FAT32 partition the writes of the
formatter lie in the partition exactly when the formatter is not reached or
the size is not 0. -/
theorem createPartitionMb_fat32_inside_iff (hs : Reachable s) (m : UInt32) :
    ∃ rc s', (createPartitionMb m .fat32).run s = some (rc, s') ∧
      ((∀ e ∈ s.formatterEvents s', e.WritesInside 2048 (mbToSectors m)) ↔
        ¬CallsFormatter s (.createPartitionMb m .fat32) ∨ m ≠ 0) := by
  obtain ⟨s', hrun, hsystem, -⟩ := createPartitionMb_does m .fat32 s hs.ready
  refine ⟨_, s', hrun, ?_⟩
  have hdisk : s'.disk = (s.system.createPartitionMb m .fat32).2.disk :=
    congrArg System.disk hsystem
  by_cases hchecks : s.currentDisk = -1 ∨ m.toUInt64 > s.selected.sizeMb
  · have hnone : s.system.creation (.createPartitionMb m .fat32) = none := if_pos hchecks
    rw [System.createPartitionMb_rejected hnone] at hdisk
    have htrace : s'.disk.trace = s.disk.trace ++ [] := by
      rw [hdisk, List.append_nil]
      rfl
    refine iff_of_true ?_ (Or.inl fun hcalls => hcalls.1 hnone)
    rw [Machine.formatterEvents, Machine.newEvents_of_append htrace]
    simp
  · obtain ⟨hcurrent, hsize⟩ := not_or.mp hchecks
    have hsome : s.system.creation (.createPartitionMb m .fat32) =
      some (.fat32, mbToSectors m) := if_neg hchecks
    rw [System.createPartitionMb_accepted hsome] at hdisk
    by_cases hcalls : s.disk.CallsFormatter s.selected.controller s.selected.drive
    · rw [formatterEvents_of_calls hcalls hdisk (hs.valid.size_le (t := s.system) hcurrent hsize)]
      simp [CallsFormatter, hsome, hcalls]
    · obtain ⟨evs, htrace, hlen⟩ := s.disk.create_of_not_calls s.selected.controller
        s.selected.drive 2048 (mbToSectors m) .fat32 hcalls
      have hfinal : s'.disk.trace = s.disk.trace ++ evs := by
        rw [hdisk]
        exact htrace
      refine iff_of_true ?_ (Or.inl fun hcalled => hcalls hcalled.2)
      rw [Machine.formatterEvents, Machine.newEvents_of_append hfinal,
        List.drop_eq_nil_of_le hlen]
      simp

theorem createPartitionMb_fat32_inside_selected :
    ∃ s, Run Command.exec (fun _ _ => True) (blankMachine primaryMaster)
        [.update, .selectDisk 0] s ∧
      ∃ rc s', (createPartitionMb 63 .fat32).run s = some (rc, s') ∧
        ((∀ e ∈ s.formatterEvents s', e.WritesInside 2048 (mbToSectors 63)) ↔
          ¬CallsFormatter s (.createPartitionMb 63 .fat32) ∨ (63 : UInt32) ≠ 0) := by
  obtain ⟨s, hrun, -⟩ := exists_selected (fun _ _ _ => blankSector) fun _ => promptAnswer
  exact ⟨s, hrun, createPartitionMb_fat32_inside_iff ⟨_, _, blankMachine_booted _, hrun⟩ 63⟩

/-- A partition of 0 MB is accepted; the boot sector is written all the same. -/
theorem createPartitionMb_fat32_outside :
    ∃ s, Run Command.exec (fun _ _ => True) (blankMachine primaryMaster)
        [.update, .selectDisk 0] s ∧
      ∃ rc s', (createPartitionMb 0 .fat32).run s = some (rc, s') ∧
        ¬∀ e ∈ s.formatterEvents s', e.WritesInside 2048 (mbToSectors 0) := by
  obtain ⟨s, hrun, hdisk, hcurrent, -, -, hsize⟩ :=
    exists_selected (fun _ _ _ => blankSector) fun _ => promptAnswer
  have hs : Reachable s := ⟨_, _, blankMachine_booted _, hrun⟩
  obtain ⟨s', hexec, hsystem, -⟩ := createPartitionMb_does 0 .fat32 s hs.ready
  have haccept : s.system.creation (.createPartitionMb 0 .fat32) = some (.fat32, mbToSectors 0) :=
    if_neg (show ¬(s.currentDisk = -1 ∨ (0 : UInt32).toUInt64 > s.selected.sizeMb) by
      rw [hcurrent, hsize]
      decide)
  have hcalls : s.disk.CallsFormatter s.selected.controller s.selected.drive := by
    rw [hdisk]
    exact ⟨rfl, (by decide : blankSector.freeSlot ≠ none), (by decide : promptAnswer.ok)⟩
  dsimp only at hexec hsystem
  rw [System.createPartitionMb_accepted haccept] at hexec hsystem
  refine ⟨s, hrun, _, s', hexec, ?_⟩
  rw [formatterEvents_of_calls hcalls (congrArg System.disk hsystem) (by decide)]
  simp

end Fat32

end EtyOS
