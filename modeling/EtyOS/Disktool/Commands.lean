import EtyOS.Disktool.DiskTable
import EtyOS.Disktool.DisplaySpec
import EtyOS.Kernel.Boot
import EtyOS.Partition.Effects

/-!
# Runs of commands

The commands of the shell as one type, what each of them does to the disks and
to the table, and the states that a machine can reach after booting.
-/

namespace EtyOS

open Library

inductive Command where
  | update
  | listDisks
  | selectDisk (diskIndex : ℤ)
  | createPartitionMb (sizeMb : UInt32) (fsType : FileSystemType)
  | formatDisk (fsType : FileSystemType)
  | deletePartition (partitionIndex : ℤ)
  | displayPartitionInfo
  deriving DecidableEq

/-- The handler of a command; a handler without a result yields 0. -/
def Command.exec : Command → Kernel ℤ
  | .update => do initDisktool; return 0
  | .listDisks => do EtyOS.listDisks; return 0
  | .selectDisk i => EtyOS.selectDisk i
  | .createPartitionMb m fs => EtyOS.createPartitionMb m fs
  | .formatDisk fs => EtyOS.formatDisk fs
  | .deletePartition i => EtyOS.deletePartition i
  | .displayPartitionInfo => do EtyOS.displayPartitionInfo; return 0

namespace System

variable (t : System)

def step : Command → ℤ × System
  | .update => (0, { t with config := t.config.rescan })
  | .listDisks => (0, t)
  | .selectDisk i => t.selectDisk i
  | .createPartitionMb m fs => t.createPartitionMb m fs
  | .formatDisk fs => t.formatDisk fs
  | .deletePartition i => t.deletePartition i
  | .displayPartitionInfo => (0, t.displayPartitionInfo.2)

/-- The file system and the sector count of a creation that passes its checks. -/
def creation : Command → Option (FileSystemType × UInt32)
  | .createPartitionMb m fs =>
    if t.config.currentDisk = -1 ∨ m.toUInt64 > t.selected.sizeMb then none
    else some (fs, mbToSectors m)
  | .formatDisk fs =>
    if t.config.currentDisk = -1 ∨ t.selected.sizeMb.toUInt32 < 32 then none
    else some (fs, mbToSectors t.selected.sizeMb.toUInt32 - 2048)
  | _ => none

/-- The slot of a deletion that passes its checks on the selection and the index. -/
def deletion : Command → Option ℕ
  | .deletePartition i =>
    if t.config.currentDisk = -1 ∨ i < 0 ∨ i ≥ 4 then none else some i.toNat
  | _ => none

/-- The index of a selection that is accepted. -/
def selection : Command → Option ℤ
  | .selectDisk i => if i < 0 ∨ i ≥ t.config.numDisks then none else some i
  | _ => none

/-- The command scans the drives. -/
def rescans : Command → Bool
  | .update => true
  | .createPartitionMb m fs => (t.creation (.createPartitionMb m fs)).isSome
  | _ => false

end System

theorem Command.exec_does (k : Command) : Does k.exec fun t => t.step k := by
  cases k with
  | update => exact Simulates.bind initDisktool_does fun _ => Simulates.pure 0
  | listDisks => exact Simulates.bind listDisks_does fun _ => Simulates.pure 0
  | selectDisk i => exact selectDisk_does i
  | createPartitionMb m fs => exact createPartitionMb_does m fs
  | formatDisk fs => exact formatDisk_does fs
  | deletePartition i => exact deletePartition_does i
  | displayPartitionInfo =>
    exact Simulates.bind displayPartitionInfo_does fun _ => Simulates.pure 0

section Step

variable {t : System} {k : Command}

/-- A command that is not a creation, or one that its checks reject. -/
theorem System.createPartitionMb_rejected {m : UInt32} {fs : FileSystemType}
    (h : t.creation (.createPartitionMb m fs) = none) : t.createPartitionMb m fs = (-1, t) := by
  simp only [System.creation, ite_eq_left_iff, reduceCtorEq, imp_false, not_not] at h
  unfold System.createPartitionMb
  split
  · rfl
  · rw [if_pos (h.resolve_left (by assumption))]

theorem System.formatDisk_rejected {fs : FileSystemType}
    (h : t.creation (.formatDisk fs) = none) : t.formatDisk fs = (-1, t) := by
  simp only [System.creation, ite_eq_left_iff, reduceCtorEq, imp_false, not_not] at h
  unfold System.formatDisk
  split
  · rfl
  · rw [if_pos (h.resolve_left (by assumption))]

theorem System.deletePartition_rejected {i : ℤ}
    (h : t.deletion (.deletePartition i) = none) : t.deletePartition i = (-1, t) := by
  simp only [System.deletion, ite_eq_left_iff, reduceCtorEq, imp_false, not_not] at h
  unfold System.deletePartition
  split
  · rfl
  · rw [if_pos (h.resolve_left (by assumption))]

/-- What the checks of an accepted request have found. -/
theorem System.createPartitionMb_checks {m : UInt32} {fs fs' : FileSystemType} {n : UInt32}
    (h : t.creation (.createPartitionMb m fs) = some (fs', n)) :
    t.config.currentDisk ≠ -1 ∧ ¬m.toUInt64 > t.selected.sizeMb ∧ fs' = fs ∧
      n = mbToSectors m := by
  simp only [System.creation] at h
  split at h
  · simp at h
  · rename_i hchecks
    obtain ⟨hcurrent, hsize⟩ := not_or.mp hchecks
    obtain ⟨hfs, hn⟩ := Prod.mk.inj (Option.some.inj h)
    exact ⟨hcurrent, hsize, hfs.symm, hn.symm⟩

theorem System.formatDisk_checks {fs fs' : FileSystemType} {n : UInt32}
    (h : t.creation (.formatDisk fs) = some (fs', n)) :
    t.config.currentDisk ≠ -1 ∧ ¬t.selected.sizeMb.toUInt32 < 32 ∧ fs' = fs ∧
      n = mbToSectors t.selected.sizeMb.toUInt32 - 2048 := by
  simp only [System.creation] at h
  split at h
  · simp at h
  · rename_i hchecks
    obtain ⟨hcurrent, hsize⟩ := not_or.mp hchecks
    obtain ⟨hfs, hn⟩ := Prod.mk.inj (Option.some.inj h)
    exact ⟨hcurrent, hsize, hfs.symm, hn.symm⟩

theorem System.createPartitionMb_accepted {m : UInt32} {fs fs' : FileSystemType} {n : UInt32}
    (h : t.creation (.createPartitionMb m fs) = some (fs', n)) :
    t.createPartitionMb m fs = (0, { t.create fs' n with config := t.config.rescan }) := by
  obtain ⟨hcurrent, hsize, rfl, rfl⟩ := System.createPartitionMb_checks h
  rw [System.createPartitionMb, if_neg hcurrent, if_neg hsize]

theorem System.formatDisk_accepted {fs fs' : FileSystemType} {n : UInt32}
    (h : t.creation (.formatDisk fs) = some (fs', n)) :
    t.formatDisk fs = (0, t.create fs' n) := by
  obtain ⟨hcurrent, hsize, rfl, rfl⟩ := System.formatDisk_checks h
  rw [System.formatDisk, if_neg hcurrent, if_neg hsize]

theorem System.deletePartition_accepted {i : ℤ} {j : ℕ}
    (h : t.deletion (.deletePartition i) = some j) :
    j < 4 ∧ t.deletePartition i =
      t.onDisk (DiskState.delete t.selected.controller t.selected.drive j) := by
  simp only [System.deletion] at h
  split at h
  · simp at h
  · rename_i hchecks
    obtain ⟨hcurrent, hindex⟩ := not_or.mp hchecks
    obtain rfl := Option.some.inj h
    exact ⟨by omega, by rw [System.deletePartition, if_neg hcurrent, if_neg hindex]⟩

theorem System.step_disk_of_creation {fs : FileSystemType} {n : UInt32}
    (h : t.creation k = some (fs, n)) :
    (t.step k).2.disk = t.disk.create fs t.selected.controller t.selected.drive 2048 n := by
  cases k with
  | createPartitionMb m fs' =>
    rw [System.step, System.createPartitionMb_accepted h]
    rfl
  | formatDisk fs' =>
    rw [System.step, System.formatDisk_accepted h]
    rfl
  | _ => simp [System.creation] at h

/-- The command creates a partition with the file system `fs`. -/
def Command.Creates (k : Command) (fs : FileSystemType) : Prop :=
  (∃ m, k = .createPartitionMb m fs) ∨ k = .formatDisk fs

theorem System.step_rejected {fs : FileSystemType} (hk : k.Creates fs)
    (h : t.creation k = none) : t.step k = (-1, t) := by
  rcases hk with ⟨m, rfl⟩ | rfl
  · exact System.createPartitionMb_rejected h
  · exact System.formatDisk_rejected h

/-- A creation that passes its checks returns 0, whatever happens to the disk. -/
theorem System.step_result {fs fs' : FileSystemType} {n : UInt32} (hk : k.Creates fs)
    (h : t.creation k = some (fs', n)) : fs' = fs ∧ (t.step k).1 = 0 := by
  rcases hk with ⟨m, rfl⟩ | rfl
  · obtain ⟨-, -, hfs, -⟩ := System.createPartitionMb_checks h
    exact ⟨hfs, congrArg Prod.fst (System.createPartitionMb_accepted h)⟩
  · obtain ⟨-, -, hfs, -⟩ := System.formatDisk_checks h
    exact ⟨hfs, congrArg Prod.fst (System.formatDisk_accepted h)⟩

theorem System.step_disk_of_deletion {i : ℕ} (h : t.deletion k = some i) :
    (t.step k).2.disk = (t.disk.delete t.selected.controller t.selected.drive i).2 := by
  cases k with
  | deletePartition i' =>
    rw [System.step, (System.deletePartition_accepted h).2]
    rfl
  | _ => simp [System.deletion] at h

theorem System.deletion_lt {i : ℕ} (h : t.deletion k = some i) : i < 4 := by
  cases k with
  | deletePartition i' => exact (System.deletePartition_accepted h).1
  | _ => simp [System.deletion] at h

/-- The table changes by an accepted selection or by a scan. -/
theorem System.step_config :
    (t.step k).2.config = match t.selection k with
      | some i => { t.config with currentDisk := i }
      | none => if t.rescans k then t.config.rescan else t.config := by
  cases k with
  | update => simp [System.step, System.selection, System.rescans]
  | listDisks => simp [System.step, System.selection, System.rescans]
  | selectDisk i =>
    simp only [System.step, System.selection, System.selectDisk, System.rescans]
    split <;> simp
  | createPartitionMb m fs =>
    cases hcreate : t.creation (.createPartitionMb m fs) with
    | none =>
      simp [System.step, System.selection, System.rescans,
        System.createPartitionMb_rejected hcreate, hcreate]
    | some r =>
      simp [System.step, System.selection, System.rescans,
        System.createPartitionMb_accepted hcreate, hcreate]
  | formatDisk fs =>
    cases hcreate : t.creation (.formatDisk fs) with
    | none => simp [System.step, System.selection, System.rescans,
        System.formatDisk_rejected hcreate]
    | some r =>
      simp [System.step, System.selection, System.rescans,
        System.formatDisk_accepted hcreate, System.create]
  | deletePartition i =>
    cases hdelete : t.deletion (.deletePartition i) with
    | none => simp [System.step, System.selection, System.rescans,
        System.deletePartition_rejected hdelete]
    | some j =>
      simp [System.step, System.selection, System.rescans,
        (System.deletePartition_accepted hdelete).2, System.onDisk]
  | displayPartitionInfo =>
    simp only [System.step, System.selection, System.rescans, System.displayPartitionInfo]
    split <;> rfl

end Step

section Reachable

/-- A state that the machine reaches by commands after booting. -/
def Reachable (s : Machine) : Prop :=
  ∃ s₀ ks, s₀.Booted ∧ Run Command.exec (fun _ _ => True) s₀ ks s

theorem Reachable.boot {s : Machine} (h : s.Booted) : Reachable s := ⟨s, [], h, .nil⟩

theorem Reachable.step {s s' : Machine} {k : Command} {a : ℤ} (h : Reachable s)
    (hrun : k.exec.run s = some (a, s')) : Reachable s' := by
  obtain ⟨s₀, ks, hboot, hks⟩ := h
  exact ⟨s₀, ks ++ [k], hboot, hks.snoc trivial hrun⟩

/-- The pool survives every run of commands. -/
theorem Reachable.ready {s : Machine} (h : Reachable s) : s.Ready := by
  obtain ⟨s₀, ks, hboot, hrun⟩ := h
  exact (hrun.simulated Command.exec_does hboot.ready).1

/-- What a command that has come back has done. -/
theorem Command.exec_inversion {s s' : Machine} {k : Command} {rc : ℤ} (hs : s.Ready)
    (hrun : k.exec.run s = some (rc, s')) :
    rc = (s.system.step k).1 ∧ s'.disk = (s.system.step k).2.disk ∧
      s'.config = (s.system.step k).2.config ∧ s'.Ready := by
  obtain ⟨hrc, hsystem, hready⟩ := (k.exec_does).inversion hs hrun
  exact ⟨hrc, congrArg System.disk hsystem, congrArg System.config hsystem, hready⟩

/-- Commands after booting always have a run. -/
theorem exists_run {s₀ : Machine} (hboot : s₀.Booted) (ks : List Command) :
    ∃ s, Run Command.exec (fun _ _ => True) s₀ ks s ∧
      s.system = ks.foldl (fun t k => (t.step k).2) s₀.system :=
  Run.exists_of_simulates Command.exec_does hboot.ready ks

/-- With a single drive on the primary channel, `update` and `selectdisk 0` select it. -/
theorem exists_selected (media : Fin 2 → Fin 2 → ℕ → Sector) (answers : ℕ → Answer) :
    ∃ s, Run Command.exec (fun _ _ => True) (bootMachine media answers primaryMaster)
        [.update, .selectDisk 0] s ∧
      s.disk = (bootMachine media answers primaryMaster).disk ∧ s.currentDisk = 0 ∧
      s.selected.controller = 0 ∧ s.selected.drive = 0 ∧ s.selected.sizeMb = 64 := by
  obtain ⟨s, hrun, hsystem⟩ :=
    exists_run (bootMachine_booted media answers primaryMaster) [.update, .selectDisk 0]
  have hdisk : s.disk = s.system.disk := rfl
  have hcurrent : s.currentDisk = s.system.config.currentDisk := rfl
  have hselected : s.selected = s.system.selected := rfl
  refine ⟨s, hrun, ?_⟩
  rw [hdisk, hcurrent, hselected, hsystem]
  exact ⟨rfl, rfl, rfl, rfl, rfl⟩

/-- Entry `j` of the table was recorded from an answer to IDENTIFY; if it is
listed, from the answer that the last scan got from its position. -/
def Config.Sourced (g : Config) (j : ℕ) : Prop :=
  ∃ n data, n < g.scanned ∧ g.identify n = some data ∧
    g.availableDisks j = diskInfo (g.availableDisks j).controller (g.availableDisks j).drive
      (identifyBuffer data.word) ∧
    (j < g.numDisks → n = g.scanned - 4 +
      (2 * (g.availableDisks j).controller.val + (g.availableDisks j).drive.val))

/-- The selection is an index, and the selected and the listed entries come from
answers to IDENTIFY. -/
structure Config.Valid (g : Config) : Prop where
  current : g.currentDisk = -1 ∨ 0 ≤ g.currentDisk
  selected : g.currentDisk ≠ -1 → g.Sourced g.currentDisk.toNat
  listed : ∀ j < g.numDisks, g.Sourced j

theorem Config.Sourced.sizeMb_le {g : Config} {j : ℕ} (h : g.Sourced j) :
    (g.availableDisks j).sizeMb.toNat ≤ 4095 := by
  obtain ⟨n, data, -, -, hentry, -⟩ := h
  rw [hentry, diskInfo_sizeMb]
  omega

theorem Config.sourced_rescan_of_lt {g : Config} {j : ℕ} (hj : j < g.found.length) :
    g.rescan.Sourced j := by
  have hentry : g.rescan.availableDisks j = g.found[j] := by
    rw [g.rescan_availableDisks, List.getElem?_eq_getElem hj, Option.getD_some]
  obtain ⟨data, hdata, hinfo⟩ := mem_found (List.getElem_mem hj)
  have hcontroller := g.found[j].controller.isLt
  have hdrive := g.found[j].drive.isLt
  refine ⟨_, data, ?_, ?_, ?_, fun _ => rfl⟩
  · rw [hentry, g.rescan_scanned]
    omega
  · rw [hentry, g.rescan_scanned, g.rescan_identify, Nat.add_sub_cancel]
    exact hdata
  · rw [hentry]
    exact hinfo

theorem Config.Sourced.rescan {g : Config} {j : ℕ} (h : g.Sourced j) : g.rescan.Sourced j := by
  by_cases hj : j < g.found.length
  · exact Config.sourced_rescan_of_lt hj
  · obtain ⟨n, data, hn, hdata, hentry, -⟩ := h
    have hkept : g.rescan.availableDisks j = g.availableDisks j := by
      rw [g.rescan_availableDisks, List.getElem?_eq_none (by omega), Option.getD_none]
    refine ⟨n, data, ?_, ?_, ?_, ?_⟩
    · rw [g.rescan_scanned]
      omega
    · rw [g.rescan_identify]
      exact hdata
    · rw [hkept]
      exact hentry
    · intro hlisted
      rw [g.rescan_numDisks] at hlisted
      exact absurd hlisted hj

theorem Config.Valid.rescan {g : Config} (h : g.Valid) : g.rescan.Valid := by
  refine ⟨by simpa using h.current, ?_, ?_⟩
  · intro hcurrent
    rw [g.rescan_currentDisk] at hcurrent ⊢
    exact (h.selected hcurrent).rescan
  · intro j hj
    rw [g.rescan_numDisks] at hj
    exact Config.sourced_rescan_of_lt hj

theorem Config.Valid.select {g : Config} (h : g.Valid) {i : ℤ} (hi : 0 ≤ i)
    (hlt : i < g.numDisks) : ({ g with currentDisk := i } : Config).Valid :=
  ⟨Or.inr hi, fun _ => h.listed i.toNat (by omega), h.listed⟩

theorem System.step_valid {t : System} (h : t.config.Valid) (k : Command) :
    (t.step k).2.config.Valid := by
  rw [System.step_config]
  cases hselect : t.selection k with
  | some i =>
    cases k with
    | selectDisk j =>
      simp only [System.selection] at hselect
      split at hselect
      · simp at hselect
      · obtain rfl := Option.some.inj hselect
        exact h.select (by omega) (by omega)
    | _ => simp [System.selection] at hselect
  | none =>
    dsimp only
    split
    · exact h.rescan
    · exact h

theorem Reachable.valid {s : Machine} (h : Reachable s) : s.config.Valid := by
  obtain ⟨s₀, ks, hboot, hrun⟩ := h
  have hstart : s₀.config.Valid := by
    refine ⟨Or.inl hboot.currentDisk, fun hne => absurd hboot.currentDisk hne, ?_⟩
    intro j hj
    have hnone : s₀.config.numDisks = 0 := hboot.numDisks
    omega
  have hkept : s.Ready ∧ s.config.Valid := by
    refine hrun.invariant (I := fun s => s.Ready ∧ s.config.Valid)
      (fun s₁ s₂ k a hs₁ _ hexec => ?_) ⟨hboot.ready, hstart⟩
    obtain ⟨-, -, hconfig, hready⟩ := Command.exec_inversion hs₁.1 hexec
    refine ⟨hready, ?_⟩
    rw [hconfig]
    exact System.step_valid hs₁.2 k
  exact hkept.2

end Reachable

section NewEvents

/-- Sector 0 of the selected disk. -/
def Machine.selectedMbr (s : Machine) : Sector :=
  s.bus.media s.selected.controller s.selected.drive 0

/-- What has been recorded since `s`. -/
def Machine.newEvents (s s' : Machine) : List Event := s'.trace.drop s.trace.length

theorem Machine.newEvents_of_append {s s' : Machine} {evs : List Event}
    (h : s'.disk.trace = s.disk.trace ++ evs) : s.newEvents s' = evs := by
  have htrace : s'.trace = s.trace ++ evs := h
  rw [newEvents, htrace, List.drop_left]

end NewEvents

section Megabytes

/-- Below 4096 MB the conversion to sectors is exact. -/
theorem mbToSectors_toNat {m : UInt32} (h : m.toNat ≤ 4095) :
    (mbToSectors m).toNat = 2048 * m.toNat := by
  rw [mbToSectors, UInt32.toNat_div, UInt32.toNat_mul, UInt32.toNat_mul]
  change m.toNat * 1024 % 2 ^ 32 * 1024 % 2 ^ 32 / 512 = _
  omega

/-- A size that is accepted is below 4096 MB. -/
theorem Config.Valid.size_le {t : System} (h : t.config.Valid) {m : UInt32}
    (hcurrent : t.config.currentDisk ≠ -1) (hsize : ¬m.toUInt64 > t.selected.sizeMb) :
    m.toNat ≤ 4095 := by
  have hselected : t.selected.sizeMb.toNat ≤ 4095 := (h.selected hcurrent).sizeMb_le
  rw [gt_iff_lt, UInt64.lt_iff_toNat_lt, UInt32.toNat_toUInt64] at hsize
  omega

end Megabytes

end EtyOS
