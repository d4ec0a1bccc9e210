import EtyOS.Disktool.Commands
import EtyOS.Partition.Trace

/-!
# What a creation reports and what it leaves

The entry is written before the formatter looks at the size, and the result of
`create_partition_mb` and `format_disk` depends on their own checks alone.
-/

namespace EtyOS

open Library

/-- If a formatter called for the selected disk failed, sector 0 is as before. -/
def RollsBack (s s' : Machine) : Prop :=
  (∃ fs n result, result ≠ 0 ∧ Event.format fs s.selected.controller s.selected.drive 2048 n
      result ∈ s.newEvents s') →
    s'.bus.media s.selected.controller s.selected.drive 0 = s.selectedMbr

/-- A free slot was found, the rewritten MBR was written, and the formatter returned 0. -/
def CreatesPartition (s s' : Machine) (fs : FileSystemType) : Prop :=
  ∃ i n, s.selectedMbr.freeSlot = some i ∧
    Event.write s.selected.controller s.selected.drive 0
      (s.selectedMbr.fillSlot i fs.code 2048 n) true ∈ s.newEvents s' ∧
    Event.format fs s.selected.controller s.selected.drive 2048 n 0 ∈ s.newEvents s'

section RollBack

variable {s s' : Machine}

theorem rollsBack_of_media
    (h : s'.bus.media s.selected.controller s.selected.drive 0 = s.selectedMbr) :
    RollsBack s s' := fun _ => h

theorem createPartitionMb_size_iff (hvalid : s.config.Valid) {m : UInt32}
    (hcurrent : s.currentDisk ≠ -1) (hsize : ¬m.toUInt64 > s.selected.sizeMb) :
    mbToSectors m < 8192 ↔ ¬4 ≤ m := by
  have hle := hvalid.size_le (t := s.system) hcurrent hsize
  rw [UInt32.lt_iff_toNat_lt, UInt32.le_iff_toNat_le, mbToSectors_toNat hle]
  change 2048 * m.toNat < 8192 ↔ ¬4 ≤ m.toNat
  omega

/-- When every sector is transferred, a creation rolls back exactly when there
is no free slot or the formatter accepts the size. -/
theorem rollsBack_creation_iff {fs : FileSystemType} {n : UInt32}
    (hdisk : s'.disk = s.disk.create fs s.selected.controller s.selected.drive 2048 n)
    (htransferred : ∀ e ∈ s.newEvents s', e.Transferred) :
    RollsBack s s' ↔ s.selectedMbr.freeSlot = none ∨ ¬(fs = .ext4 ∧ n < 8192) := by
  have hcases := s.disk.create_cases fs s.selected.controller s.selected.drive n
  rw [← hdisk] at hcases
  cases hcases with
  | unreadable hread htrace hzero =>
    rw [Machine.newEvents_of_append htrace] at htransferred
    exact absurd (htransferred _ (List.mem_singleton_self _)) (by simp [Event.Transferred])
  | full hread hslot htrace hzero => exact iff_of_true (rollsBack_of_media hzero) (Or.inl hslot)
  | unwritten i hread hslot hwrite htrace =>
    rw [Machine.newEvents_of_append htrace] at htransferred
    exact absurd (htransferred _ (List.mem_cons_of_mem _ (List.mem_singleton_self _)))
      (by simp [Event.Transferred])
  | formatted i evs result hread hslot hwrite hops hformat hresult htrace hzero =>
    have hevents := Machine.newEvents_of_append htrace
    have hslot' : s.selectedMbr.freeSlot = some i := hslot
    have hevs : ∀ e ∈ evs, e.Transferred := fun e he => htransferred e (by simp [hevents, he])
    by_cases hsmall : fs = .ext4 ∧ n < 8192
    · have hfailed : result ≠ 0 := fun h => (hresult.mp h).1 hsmall
      refine iff_of_false ?_ (by simp [hslot', hsmall])
      intro hback
      exact fillSlot_ne hslot' fs 2048 n
        (hzero.symm.trans (hback ⟨fs, n, result, hfailed, by simp [hevents]⟩))
    · refine iff_of_true ?_ (Or.inr hsmall)
      rintro ⟨fs', n', result', hne, hmem⟩
      refine absurd ?_ hne
      simp only [hevents, List.mem_append, List.mem_cons, reduceCtorEq, List.not_mem_nil,
        or_false, false_or, Event.format.injEq] at hmem
      rcases hmem with hmem | ⟨-, -, -, -, -, rfl⟩
      · exact absurd (hops _ hmem) (by simp [Event.OfFormatter])
      · exact hresult.mpr ⟨hsmall, hevs⟩

/-- `create_partition_mb` comes back; when every sector is transferred, a failing
formatter leaves sector 0 as it was exactly when it was not called, was the
FAT32 formatter, or got at least 4 MB. -/
theorem createPartitionMb_rollsBack_iff (hs : Reachable s) (m : UInt32) (fs : FileSystemType) :
    ∃ rc s', (createPartitionMb m fs).run s = some (rc, s') ∧
      ((∀ e ∈ s.newEvents s', e.Transferred) →
        (RollsBack s s' ↔ s.currentDisk = -1 ∨ m.toUInt64 > s.selected.sizeMb ∨
          s.selectedMbr.freeSlot = none ∨ fs = .fat32 ∨ 4 ≤ m)) := by
  obtain ⟨s', hrun, hsystem, -⟩ := createPartitionMb_does m fs s hs.ready
  refine ⟨_, s', hrun, ?_⟩
  intro htransferred
  have hdisk : s'.disk = (s.system.createPartitionMb m fs).2.disk := congrArg System.disk hsystem
  by_cases hchecks : s.currentDisk = -1 ∨ m.toUInt64 > s.selected.sizeMb
  · have hnone : s.system.creation (.createPartitionMb m fs) = none := if_pos hchecks
    rw [System.createPartitionMb_rejected hnone] at hdisk
    refine iff_of_true (rollsBack_of_media ?_) (hchecks.imp_right Or.inl)
    exact congrArg (fun k : DiskState => k.media _ _ 0) hdisk
  · obtain ⟨hcurrent, hsize⟩ := not_or.mp hchecks
    have hsome : s.system.creation (.createPartitionMb m fs) = some (fs, mbToSectors m) :=
      if_neg hchecks
    rw [System.createPartitionMb_accepted hsome] at hdisk
    rw [rollsBack_creation_iff hdisk htransferred,
      createPartitionMb_size_iff hs.valid hcurrent hsize]
    cases fs <;> simp [hcurrent, hsize]

/-- On a machine with one empty disk of 64 MB, which is selected: the conclusion
for a size that is too small for ext4. -/
theorem createPartitionMb_rollsBack_selected :
    ∃ s, Run Command.exec (fun _ _ => True) (blankMachine primaryMaster)
        [.update, .selectDisk 0] s ∧
      ∃ rc s', (createPartitionMb 1 .ext4).run s = some (rc, s') ∧
        ((∀ e ∈ s.newEvents s', e.Transferred) →
          (RollsBack s s' ↔ s.currentDisk = -1 ∨ (1 : UInt32).toUInt64 > s.selected.sizeMb ∨
            s.selectedMbr.freeSlot = none ∨ FileSystemType.ext4 = .fat32 ∨ (4 : UInt32) ≤ 1)) := by
  obtain ⟨s, hrun, -⟩ := exists_selected (fun _ _ _ => blankSector) fun _ => promptAnswer
  exact ⟨s, hrun, createPartitionMb_rollsBack_iff ⟨_, _, blankMachine_booted _, hrun⟩ 1 .ext4⟩

/-- A creation that is too small for ext4 on a machine with one empty disk of 64 MB. -/
theorem exists_small_creation :
    ∃ s, Run Command.exec (fun _ _ => True) (blankMachine primaryMaster)
        [.update, .selectDisk 0] s ∧ s.disk = (blankMachine primaryMaster).disk ∧
      ∃ s', (createPartitionMb 1 .ext4).run s = some (0, s') ∧
        s'.disk = s.disk.create .ext4 s.selected.controller s.selected.drive 2048 2048 := by
  obtain ⟨s, hrun, hdisk, hcurrent, -, -, hsize⟩ :=
    exists_selected (fun _ _ _ => blankSector) fun _ => promptAnswer
  have hs : Reachable s := ⟨_, _, blankMachine_booted _, hrun⟩
  obtain ⟨s', hexec, hsystem, -⟩ := createPartitionMb_does 1 .ext4 s hs.ready
  have haccept : s.system.creation (.createPartitionMb 1 .ext4) = some (.ext4, 2048) :=
    if_neg (show ¬(s.currentDisk = -1 ∨ (1 : UInt32).toUInt64 > s.selected.sizeMb) by
      rw [hcurrent, hsize]
      decide)
  dsimp only at hexec hsystem
  rw [System.createPartitionMb_accepted haccept] at hexec hsystem
  exact ⟨s, hrun, hdisk, s', hexec, congrArg System.disk hsystem⟩

theorem createPartitionMb_keeps_entry :
    ∃ s, Run Command.exec (fun _ _ => True) (blankMachine primaryMaster)
        [.update, .selectDisk 0] s ∧
      ∃ rc s', (createPartitionMb 1 .ext4).run s = some (rc, s') ∧
        (∀ e ∈ s.newEvents s', e.Transferred) ∧ ¬RollsBack s s' := by
  obtain ⟨s, hrun, hdisk, s', hexec, hcreate⟩ := exists_small_creation
  have hslot : (s.disk.media s.selected.controller s.selected.drive 0).freeSlot = some 0 := by
    rw [hdisk]
    exact (by decide : blankSector.freeSlot = some 0)
  have htrace := s.disk.create_small s.selected.controller s.selected.drive 2048
    (by rw [hdisk]; rfl) hslot (by rw [hdisk]; exact (by decide : promptAnswer.ok)) (by decide)
  rw [← hcreate] at htrace
  have htransferred : ∀ e ∈ s.newEvents s', e.Transferred := by
    rw [Machine.newEvents_of_append htrace]
    simp [Event.Transferred]
  refine ⟨s, hrun, _, s', hexec, htransferred, ?_⟩
  rw [rollsBack_creation_iff hcreate htransferred]
  have hslot' : s.selectedMbr.freeSlot = some 0 := hslot
  simp [hslot']

end RollBack

section Report

variable {s s' : Machine}

/-- Everything that a creation depends on goes well: the MBR is read, has a free
slot and is written, and the operations of the formatter are served. -/
def CreationServed (s : Machine) (fs : FileSystemType) (n : UInt32) : Prop :=
  (s.bus.answers s.bus.issued).abort = false ∧ s.selectedMbr.freeSlot ≠ none ∧
    (s.bus.answers (s.bus.issued + 1)).ok ∧ s.disk.FormatterServed fs n (s.bus.issued + 2)

theorem createsPartition_iff {fs : FileSystemType} {n : UInt32}
    (hdisk : s'.disk = s.disk.create fs s.selected.controller s.selected.drive 2048 n) :
    CreatesPartition s s' fs ↔ CreationServed s fs n := by
  have hcases := s.disk.create_cases fs s.selected.controller s.selected.drive n
  rw [← hdisk] at hcases
  cases hcases with
  | unreadable hread htrace _ =>
    have hread' : (s.bus.answers s.bus.issued).abort = true := hread
    refine iff_of_false ?_ (fun h => by simp [h.1] at hread')
    rintro ⟨i, n', _, hmem, _⟩
    simp [Machine.newEvents_of_append htrace] at hmem
  | full _ hslot _ _ =>
    refine iff_of_false ?_ (fun h => h.2.1 hslot)
    rintro ⟨i, n', hslot', _⟩
    exact absurd (hslot.symm.trans hslot') (by simp)
  | unwritten i _ _ hwrite htrace =>
    refine iff_of_false ?_ (fun h => hwrite h.2.2.1)
    rintro ⟨j, n', _, hmem, _⟩
    simp [Machine.newEvents_of_append htrace] at hmem
  | formatted i evs result hread hslot hwrite hops hformat hresult htrace _ =>
    have hevents := Machine.newEvents_of_append htrace
    have hserved : result = 0 ↔ s.disk.FormatterServed fs n (s.bus.issued + 2) := by
      rw [hformat, DiskState.formatter_eq_zero_iff]
      exact Iff.rfl
    constructor
    · rintro ⟨j, n', -, -, hmem⟩
      simp only [hevents, List.mem_append, List.mem_cons, reduceCtorEq, List.not_mem_nil,
        or_false, false_or, Event.format.injEq] at hmem
      rcases hmem with hmem | ⟨-, -, -, -, -, hzero⟩
      · exact absurd (hops _ hmem) (by simp [Event.OfFormatter])
      · refine ⟨hread, fun h => ?_, hwrite, hserved.mp hzero.symm⟩
        exact absurd (h.symm.trans hslot) (by simp)
    · rintro ⟨-, -, -, hformatter⟩
      refine ⟨i, n, hslot, ?_, ?_⟩
      · rw [hevents]
        exact List.mem_append_left _ (List.mem_append_left _ (by simp [Machine.selectedMbr]))
      · rw [hevents, hserved.mpr hformatter]
        simp

/-- A creation command comes back; its result is 0 without a partition exactly
when its checks pass and something that the partition depends on goes wrong. -/
theorem creation_reported_iff (hs : Reachable s) {k : Command} {fs : FileSystemType}
    (hk : k.Creates fs) :
    ∃ rc s', k.exec.run s = some (rc, s') ∧
      ((rc = 0 → CreatesPartition s s' fs) ↔ s.system.creation k = none ∨
        ∃ n, s.system.creation k = some (fs, n) ∧ CreationServed s fs n) := by
  obtain ⟨s', hrun, hsystem, -⟩ := k.exec_does s hs.ready
  refine ⟨_, s', hrun, ?_⟩
  cases hcreate : s.system.creation k with
  | none =>
    have hresult : (s.system.step k).1 = -1 := congrArg Prod.fst (System.step_rejected hk hcreate)
    exact iff_of_true (fun h => absurd (hresult.symm.trans h) (by omega)) (Or.inl rfl)
  | some r =>
    obtain ⟨fs', n⟩ := r
    obtain ⟨rfl, hresult⟩ := System.step_result hk hcreate
    have hdisk : s'.disk =
        s.disk.create fs' s.selected.controller s.selected.drive 2048 n :=
      (congrArg System.disk hsystem).trans (System.step_disk_of_creation hcreate)
    rw [hresult]
    simpa using createsPartition_iff hdisk

theorem creation_reported_selected :
    ∃ s, Run Command.exec (fun _ _ => True) (blankMachine primaryMaster)
        [.update, .selectDisk 0] s ∧
      ∃ rc s', (Command.formatDisk .fat32).exec.run s = some (rc, s') ∧
        ((rc = 0 → CreatesPartition s s' .fat32) ↔
          s.system.creation (.formatDisk .fat32) = none ∨
            ∃ n, s.system.creation (.formatDisk .fat32) = some (.fat32, n) ∧
              CreationServed s .fat32 n) := by
  obtain ⟨s, hrun, -⟩ := exists_selected (fun _ _ _ => blankSector) fun _ => promptAnswer
  exact ⟨s, hrun, creation_reported_iff ⟨_, _, blankMachine_booted _, hrun⟩ (Or.inr rfl)⟩

/-- The ext4 formatter refuses the partition, and the result is 0. -/
theorem createPartitionMb_reports_failure :
    ∃ s, Run Command.exec (fun _ _ => True) (blankMachine primaryMaster)
        [.update, .selectDisk 0] s ∧
      ∃ s', (createPartitionMb 1 .ext4).run s = some (0, s') ∧ ¬CreatesPartition s s' .ext4 := by
  obtain ⟨s, hrun, -, s', hexec, hcreate⟩ := exists_small_creation
  refine ⟨s, hrun, s', hexec, ?_⟩
  intro hcreates
  have hserved := (createsPartition_iff hcreate).mp hcreates
  exact hserved.2.2.2.1 (by decide)

end Report

end EtyOS
