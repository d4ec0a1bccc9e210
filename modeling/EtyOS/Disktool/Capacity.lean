import EtyOS.Disktool.Outcome

/-!
# Whether a new entry fits on its disk

The size check compares megabytes with megabytes, but the partition starts one
megabyte into the disk. Only the full recorded size is too much; from 2^23
sectors on the recorded size is less than the disk by the wrapped product.
-/

namespace EtyOS

open Library

/-- Every entry that is written and was not there before ends within `total` sectors. -/
def EntriesFit (s s' : Machine) (total : ℕ) : Prop :=
  ∀ x ok, Event.write s.selected.controller s.selected.drive 0 x ok ∈ s.newEvents s' →
    ∀ j : Fin 4, x.table j = s.selectedMbr.table j ∨
      (x.table j).lbaFirst + (x.table j).sectorCount ≤ total

section Fit

variable {s s' : Machine}

/-- The entry that a creation writes begins at sector 2048. -/
theorem fillSlot_fits_iff {x : Sector} {i : ℕ} (hslot : x.freeSlot = some i)
    (fs : FileSystemType) (n : UInt32) (total : ℕ) :
    (∀ j : Fin 4, (x.fillSlot i fs.code 2048 n).table j = x.table j ∨
      ((x.fillSlot i fs.code 2048 n).table j).lbaFirst +
        ((x.fillSlot i fs.code 2048 n).table j).sectorCount ≤ total) ↔
      2048 + n.toNat ≤ total := by
  obtain ⟨i, rfl, -, htype⟩ := exists_entry_of_freeSlot hslot
  rw [table_fillSlot]
  constructor
  · intro h
    rcases h i with heq | hle
    · rw [Function.update_self] at heq
      rw [← heq] at htype
      exact absurd htype (code_ne_zero fs)
    · rw [Function.update_self] at hle
      exact hle
  · intro h j
    by_cases hj : j = i
    · right
      rw [hj, Function.update_self]
      exact h
    · left
      rw [Function.update_of_ne hj]

theorem entriesFit_creation_iff {fs : FileSystemType} {n : UInt32} {total : ℕ}
    (hdisk : s'.disk = s.disk.create fs s.selected.controller s.selected.drive 2048 n) :
    EntriesFit s s' total ↔ (s.bus.answers s.bus.issued).abort = true ∨
      s.selectedMbr.freeSlot = none ∨ 2048 + n.toNat ≤ total := by
  have hcases := s.disk.create_cases fs s.selected.controller s.selected.drive n
  rw [← hdisk] at hcases
  cases hcases with
  | unreadable hread htrace _ =>
    refine iff_of_true ?_ (Or.inl hread)
    intro x ok hmem
    simp [Machine.newEvents_of_append htrace] at hmem
  | full hread hslot htrace _ =>
    refine iff_of_true ?_ (Or.inr (Or.inl hslot))
    intro x ok hmem
    simp [Machine.newEvents_of_append htrace] at hmem
  | unwritten i hread hslot hwrite htrace =>
    have hread' : (s.bus.answers s.bus.issued).abort = false := hread
    have hslot' : s.selectedMbr.freeSlot = some i := hslot
    rw [← fillSlot_fits_iff hslot' fs n total]
    simp only [EntriesFit, Machine.newEvents_of_append htrace]
    simp [hread', hslot']
    rfl
  | formatted i evs result hread hslot hwrite hops hformat hresult htrace hzero =>
    have hread' : (s.bus.answers s.bus.issued).abort = false := hread
    have hslot' : s.selectedMbr.freeSlot = some i := hslot
    have hnot : ∀ x ok, Event.write s.selected.controller s.selected.drive 0 x ok ∉ evs :=
      fun x ok hmem => (hops _ hmem).2.2.deviceLba_ne_zero rfl
    rw [← fillSlot_fits_iff hslot' fs n total]
    simp only [EntriesFit, Machine.newEvents_of_append htrace, hread', hslot']
    simp [hnot, Machine.selectedMbr]

end Fit

section Capacity

variable {s : Machine}

/-- The selected entry was recorded from an answer to IDENTIFY that reported
`total` sectors; if the disk is listed, from the answer of the last scan. -/
def Machine.SelectedReports (s : Machine) (total : ℕ) : Prop :=
  ∃ n data, n < s.bus.scanned ∧ s.bus.identify n = some data ∧
    s.selected = diskInfo s.selected.controller s.selected.drive (identifyBuffer data.word) ∧
    (s.currentDisk < s.numDisks → n = s.bus.scanned - 4 +
      (2 * s.selected.controller.val + s.selected.drive.val)) ∧
    total = (identifySectors (identifyBuffer data.word)).toNat

theorem Machine.SelectedReports.sizeMb {total : ℕ} (h : s.SelectedReports total) :
    s.selected.sizeMb.toNat = total % 2 ^ 23 / 2048 := by
  obtain ⟨n, data, -, -, hentry, -, rfl⟩ := h
  rw [hentry, diskInfo_sizeMb]

/-- Of an accepted request everything fits but the whole recorded size of a disk
that is not larger than recorded. -/
theorem createPartitionMb_fits_iff {total : ℕ} (htotal : s.SelectedReports total) {m : UInt32}
    (hsize : ¬m.toUInt64 > s.selected.sizeMb) :
    2048 + (mbToSectors m).toNat ≤ total ↔ 2 ^ 23 ≤ total ∨ m.toUInt64 < s.selected.sizeMb := by
  have hselected := htotal.sizeMb
  rw [gt_iff_lt, UInt64.lt_iff_toNat_lt, UInt32.toNat_toUInt64] at hsize
  rw [mbToSectors_toNat (by omega), UInt64.lt_iff_toNat_lt, UInt32.toNat_toUInt64]
  omega

theorem formatDisk_fits {total : ℕ} (htotal : s.SelectedReports total)
    (hsize : ¬s.selected.sizeMb.toUInt32 < 32) :
    2048 + (mbToSectors s.selected.sizeMb.toUInt32 - 2048).toNat ≤ total := by
  have hselected := htotal.sizeMb
  have hcut : s.selected.sizeMb.toUInt32.toNat = s.selected.sizeMb.toNat := by
    rw [UInt64.toNat_toUInt32]
    omega
  have hsectors := mbToSectors_toNat (m := s.selected.sizeMb.toUInt32) (by omega)
  rw [UInt32.lt_iff_toNat_lt, hcut] at hsize
  change ¬s.selected.sizeMb.toNat < 32 at hsize
  have hsub : (mbToSectors s.selected.sizeMb.toUInt32 - 2048).toNat =
      (mbToSectors s.selected.sizeMb.toUInt32).toNat - 2048 :=
    UInt32.toNat_sub_of_le _ _ (by
      rw [UInt32.le_iff_toNat_le, hsectors, hcut]
      change 2048 ≤ _
      omega)
  rw [hsub, hsectors, hcut]
  omega

/-- A creation command comes back. It writes an entry that ends beyond the
sectors the selected drive reported exactly when it asks for the whole recorded
size of a disk below 2^23 sectors and gets as far as writing the MBR. -/
theorem creation_fits_iff (hs : Reachable s) {total : ℕ} (htotal : s.SelectedReports total)
    {k : Command} {fs : FileSystemType} (hk : k.Creates fs) :
    ∃ rc s', k.exec.run s = some (rc, s') ∧
      (EntriesFit s s' total ↔ s.system.creation k = none ∨
        (s.bus.answers s.bus.issued).abort = true ∨ s.selectedMbr.freeSlot = none ∨
        k = .formatDisk fs ∨ 2 ^ 23 ≤ total ∨
        ∃ m, k = .createPartitionMb m fs ∧ m.toUInt64 < s.selected.sizeMb) := by
  obtain ⟨s', hrun, hsystem, -⟩ := k.exec_does s hs.ready
  refine ⟨_, s', hrun, ?_⟩
  cases hcreate : s.system.creation k with
  | none =>
    refine iff_of_true ?_ (Or.inl rfl)
    intro x ok hmem
    have hdisk : s'.disk = s.disk :=
      congrArg System.disk (hsystem.trans (congrArg Prod.snd (System.step_rejected hk hcreate)))
    have htrace : s'.disk.trace = s.disk.trace ++ [] := by rw [hdisk, List.append_nil]
    rw [Machine.newEvents_of_append htrace] at hmem
    simp at hmem
  | some r =>
    obtain ⟨fs', n⟩ := r
    obtain ⟨rfl, -⟩ := System.step_result hk hcreate
    have hdisk : s'.disk = s.disk.create fs' s.selected.controller s.selected.drive 2048 n :=
      (congrArg System.disk hsystem).trans (System.step_disk_of_creation hcreate)
    rw [entriesFit_creation_iff hdisk]
    rcases hk with ⟨m, rfl⟩ | rfl
    · obtain ⟨-, hsize, -, rfl⟩ := System.createPartitionMb_checks hcreate
      rw [createPartitionMb_fits_iff htotal hsize]
      simp
    · obtain ⟨-, hsize, -, rfl⟩ := System.formatDisk_checks hcreate
      have hfits := formatDisk_fits htotal hsize
      refine iff_of_true (Or.inr (Or.inr hfits)) ?_
      simp

/-- The 64 MB drive is selected after it has reported its 131072 sectors. -/
theorem exists_reported :
    ∃ s, Run Command.exec (fun _ _ => True) (blankMachine primaryMaster)
        [.update, .selectDisk 0] s ∧ s.disk = (blankMachine primaryMaster).disk ∧
      s.currentDisk = 0 ∧ s.selected.sizeMb = 64 ∧ s.SelectedReports 131072 := by
  obtain ⟨s, hrun, hsystem⟩ :=
    exists_run (blankMachine_booted primaryMaster) [.update, .selectDisk 0]
  have hconfig := congrArg System.config hsystem
  have hreports : ∃ n data, n < s.config.scanned ∧ s.config.identify n = some data ∧
      s.system.selected = diskInfo s.system.selected.controller s.system.selected.drive
        (identifyBuffer data.word) ∧
      (s.config.currentDisk < s.config.numDisks → n = s.config.scanned - 4 +
        (2 * s.system.selected.controller.val + s.system.selected.drive.val)) ∧
      131072 = (identifySectors (identifyBuffer data.word)).toNat := by
    rw [show s.config = _ from hconfig, hsystem]
    exact ⟨0, smallDrive, by decide, rfl, rfl, fun _ => rfl, rfl⟩
  refine ⟨s, hrun, congrArg System.disk hsystem, congrArg Config.currentDisk hconfig, ?_, hreports⟩
  have hselected : s.selected = s.system.selected := rfl
  rw [hselected, hsystem]
  rfl

theorem creation_fits_selected :
    ∃ s, Run Command.exec (fun _ _ => True) (blankMachine primaryMaster)
        [.update, .selectDisk 0] s ∧
      ∃ rc s', (Command.createPartitionMb 63 .ext4).exec.run s = some (rc, s') ∧
        (EntriesFit s s' 131072 ↔ s.system.creation (.createPartitionMb 63 .ext4) = none ∨
          (s.bus.answers s.bus.issued).abort = true ∨ s.selectedMbr.freeSlot = none ∨
          Command.createPartitionMb 63 .ext4 = .formatDisk .ext4 ∨ 2 ^ 23 ≤ 131072 ∨
          ∃ m, Command.createPartitionMb 63 .ext4 = .createPartitionMb m .ext4 ∧
            m.toUInt64 < s.selected.sizeMb) := by
  obtain ⟨s, hrun, -, -, -, hreports⟩ := exists_reported
  exact ⟨s, hrun, creation_fits_iff ⟨_, _, blankMachine_booted _, hrun⟩ hreports
    (Or.inl ⟨63, rfl⟩)⟩

/-- A partition of 64 MB on the disk of 64 MB ends 2048 sectors behind it. -/
theorem createPartitionMb_exceeds_disk :
    ∃ s, Run Command.exec (fun _ _ => True) (blankMachine primaryMaster)
        [.update, .selectDisk 0] s ∧ s.SelectedReports 131072 ∧
      ∃ s', (createPartitionMb 64 .fat32).run s = some (0, s') ∧ ¬EntriesFit s s' 131072 := by
  obtain ⟨s, hrun, hdisk, hcurrent, hsize, hreports⟩ := exists_reported
  have hs : Reachable s := ⟨_, _, blankMachine_booted _, hrun⟩
  obtain ⟨s', hexec, hsystem, -⟩ := createPartitionMb_does 64 .fat32 s hs.ready
  have haccept : s.system.creation (.createPartitionMb 64 .fat32) = some (.fat32, 131072) :=
    if_neg (show ¬(s.currentDisk = -1 ∨ (64 : UInt32).toUInt64 > s.selected.sizeMb) by
      rw [hcurrent, hsize]
      decide)
  dsimp only at hexec hsystem
  rw [System.createPartitionMb_accepted haccept] at hexec hsystem
  refine ⟨s, hrun, hreports, s', hexec, ?_⟩
  rw [entriesFit_creation_iff (congrArg System.disk hsystem)]
  have habort : (s.bus.answers s.bus.issued).abort = false := by
    change s.disk.next.abort = false
    rw [hdisk]
    rfl
  have hslot : s.selectedMbr.freeSlot = some 0 := by
    change (s.disk.media s.selected.controller s.selected.drive 0).freeSlot = some 0
    rw [hdisk]
    exact (by decide : blankSector.freeSlot = some 0)
  simp [habort, hslot]

end Capacity

end EtyOS
