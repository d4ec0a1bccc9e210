import EtyOS.Kernel.History

/-!
# Drives do not see each other

Two histories of the same lines, on machines whose drives answer alike and never fail but
hold something else in some positions: what is written to the other positions is the same,
and so are the table of disks and the selection. So nothing on one drive decides what
becomes of another, or which drive is worked on.
-/

namespace EtyOS

open Library Main

/-! ### Operations on one drive -/

namespace DiskState

variable {k k' : DiskState} {c d : Fin 2}

/-- Every command that is still to come succeeds. -/
def Served (k : DiskState) : Prop := ∀ j, (k.answers j).ok

theorem write_media_eq (hk : k.Served) (hk' : k'.Served) (h : k.media c d = k'.media c d)
    (lba : UInt32) (x : Sector) :
    (k.write c d lba x).media c d = (k'.write c d lba x).media c d := by
  simp [write, stores_of_ok k (hk _), stores_of_ok k' (hk' _), h]

/-- A plan is carried out in full, and what it leaves is decided by what was there. -/
theorem writeAll_media_eq (hk : k.Served) (hk' : k'.Served) (h : k.media c d = k'.media c d)
    (plan : List (UInt32 × Sector)) :
    (k.writeAll c d plan).2.media c d = (k'.writeAll c d plan).2.media c d := by
  induction plan generalizing k k' with
  | nil => exact h
  | cons w plan ih =>
    obtain ⟨lba, x⟩ := w
    have hok : k.next.ok := hk _
    have hok' : k'.next.ok := hk' _
    rw [writeAll, writeAll, if_pos hok, if_pos hok']
    exact ih hk hk' (write_media_eq hk hk' h lba x)

theorem formatter_media_eq (hk : k.Served) (hk' : k'.Served) (h : k.media c d = k'.media c d)
    (fs : FileSystemType) (startLba n : UInt32) :
    (k.formatter fs c d startLba n).2.media c d =
      (k'.formatter fs c d startLba n).2.media c d := by
  have habort : k.next.abort = false := (hk _).1
  have habort' : k'.next.abort = false := (hk' _).1
  cases fs with
  | fat32 => exact writeAll_media_eq hk hk' h _
  | ext4 =>
    simp only [formatter, formatExt4, habort, habort', Bool.false_eq_true, if_false]
    split
    · exact h
    · have hread : (k.read c d (startLba + 2)).Served := hk
      have hread' : (k'.read c d (startLba + 2)).Served := hk'
      exact writeAll_media_eq hread hread' h _

theorem create_media_eq (hk : k.Served) (hk' : k'.Served) (h : k.media c d = k'.media c d)
    (fs : FileSystemType) (startLba n : UInt32) :
    (k.create fs c d startLba n).media c d = (k'.create fs c d startLba n).media c d := by
  have habort : k.next.abort = false := (hk _).1
  have habort' : k'.next.abort = false := (hk' _).1
  have hok : (k.read c d 0).next.ok := hk _
  have hok' : (k'.read c d 0).next.ok := hk' _
  simp only [create, habort, habort', Bool.false_eq_true, if_false, h]
  cases (k'.media c d 0).freeSlot with
  | none => exact h
  | some i =>
    dsimp only
    set x := (k'.media c d 0).fillSlot i fs.code startLba n
    have hserved : ((k.read c d 0).write c d 0 x).Served := hk
    have hserved' : ((k'.read c d 0).write c d 0 x).Served := hk'
    have hread : (k.read c d 0).Served := hk
    have hread' : (k'.read c d 0).Served := hk'
    have hmbr : ((k.read c d 0).write c d 0 x).media c d =
        ((k'.read c d 0).write c d 0 x).media c d := write_media_eq hread hread' h 0 x
    rw [if_pos hok, if_pos hok', format, format, log_media, log_media]
    exact formatter_media_eq hserved hserved' hmbr fs startLba n

theorem delete_media_eq (hk : k.Served) (hk' : k'.Served) (h : k.media c d = k'.media c d)
    (i : ℕ) : (k.delete c d i).2.media c d = (k'.delete c d i).2.media c d := by
  have habort : k.next.abort = false := (hk _).1
  have habort' : k'.next.abort = false := (hk' _).1
  simp only [delete, habort, habort', Bool.false_eq_true, if_false, h]
  have hread : (k.read c d 0).Served := hk
  have hread' : (k'.read c d 0).Served := hk'
  split
  · exact h
  · exact write_media_eq hread hread' h 0 _

theorem delete_answers (k : DiskState) (c d : Fin 2) (i : ℕ) :
    (k.delete c d i).2.answers = k.answers := by
  unfold delete
  split
  · rfl
  · split <;> rfl

theorem displayPartitions_answers (k : DiskState) : k.displayPartitions.answers = k.answers := by
  have hentries (mbr : Memory) (n i : ℕ) (k : DiskState) :
      (k.displayEntries mbr n i).answers = k.answers := by
    induction n generalizing i k with
    | zero => rfl
    | succ n ih =>
      rw [displayEntries, ih, displayEntry]
      split <;> rfl
  unfold displayPartitions
  split
  · rfl
  · rw [hentries, read_answers]

end DiskState

namespace System

variable {t : System}

theorem step_answers (t : System) (k : Command) : (t.step k).2.disk.answers = t.disk.answers := by
  cases hcreate : t.creation k with
  | some r => rw [step_disk_of_creation hcreate, DiskState.create_answers]
  | none =>
    cases hdelete : t.deletion k with
    | some i => rw [step_disk_of_deletion hdelete, DiskState.delete_answers]
    | none =>
      cases k with
      | update => rfl
      | listDisks => rfl
      | selectDisk i =>
        rw [step, selectDisk]
        split <;> rfl
      | createPartitionMb m fs => rw [step, createPartitionMb_rejected hcreate]
      | formatDisk fs => rw [step, formatDisk_rejected hcreate]
      | deletePartition i => rw [step, deletePartition_rejected hdelete]
      | displayPartitionInfo =>
        rw [step, displayPartitionInfo]
        split
        · rfl
        · exact DiskState.displayPartitions_answers _

/-- What passes the checks is decided by the table of disks and the selection. -/
theorem creation_congr {t' : System} (h : t.config = t'.config) (k : Command) :
    t.creation k = t'.creation k := by
  obtain ⟨disk, config⟩ := t
  cases h
  cases k <;> rfl

theorem deletion_congr {t' : System} (h : t.config = t'.config) (k : Command) :
    t.deletion k = t'.deletion k := by
  obtain ⟨disk, config⟩ := t
  cases h
  cases k <;> rfl

/-- A command that neither creates nor deletes. -/
theorem step_media_quiet {k : Command} (hcreate : t.creation k = none)
    (hdelete : t.deletion k = none) : (t.step k).2.disk.media = t.disk.media := by
  cases t.step_cases k with
  | creation fs n hsome _ _ => cases hcreate.symm.trans hsome
  | deletion i _ hsome _ => cases hdelete.symm.trans hsome
  | quiet _ _ _ hmedia _ _ => exact hmedia

end System

/-! ### Two histories -/

/-- Two views with one reader, table and selection, whose drives never fail and hold the same
in all positions outside `hidden`. -/
structure MainView.Alike (hidden : Set (Fin 2 × Fin 2)) (v v' : MainView) : Prop where
  reader : v.inDisktool = v'.inDisktool
  config : v.system.config = v'.system.config
  served : v.system.disk.Served
  served' : v'.system.disk.Served
  media : ∀ c d, (c, d) ∉ hidden → v.system.disk.media c d = v'.system.disk.media c d

section Alike

variable {hidden : Set (Fin 2 × Fin 2)}

/-- A command on a hidden drive leaves the other ones alone in both histories; on another drive
it does the same in both. -/
theorem System.step_media_eq {t t' : System} (hconfig : t.config = t'.config)
    (hserved : t.disk.Served) (hserved' : t'.disk.Served)
    (hmedia : ∀ c d, (c, d) ∉ hidden → t.disk.media c d = t'.disk.media c d) (k : Command)
    {c d : Fin 2} (hshown : (c, d) ∉ hidden) :
    (t.step k).2.disk.media c d = (t'.step k).2.disk.media c d := by
  have hselected : t.selected = t'.selected := by
    rw [System.selected, System.selected, hconfig]
  by_cases hdisk : c = t.selected.controller ∧ d = t.selected.drive
  · have hkept := hmedia c d hshown
    obtain ⟨rfl, rfl⟩ := hdisk
    cases hcreate : t.creation k with
    | some r =>
      obtain ⟨fs, n⟩ := r
      have hcreate' : t'.creation k = some (fs, n) := by
        rw [← System.creation_congr hconfig, hcreate]
      rw [System.step_disk_of_creation hcreate, System.step_disk_of_creation hcreate', ← hselected]
      exact DiskState.create_media_eq hserved hserved' hkept fs 2048 n
    | none =>
      have hcreate' : t'.creation k = none := by rw [← System.creation_congr hconfig, hcreate]
      cases hdelete : t.deletion k with
      | some i =>
        have hdelete' : t'.deletion k = some i := by
          rw [← System.deletion_congr hconfig, hdelete]
        rw [System.step_disk_of_deletion hdelete, System.step_disk_of_deletion hdelete',
          ← hselected]
        exact DiskState.delete_media_eq hserved hserved' hkept i
      | none =>
        have hdelete' : t'.deletion k = none := by rw [← System.deletion_congr hconfig, hdelete]
        rw [System.step_media_quiet hcreate hdelete, System.step_media_quiet hcreate' hdelete',
          hkept]
  · have hdisk' : ¬(c = t'.selected.controller ∧ d = t'.selected.drive) := hselected ▸ hdisk
    funext a
    rw [System.step_media_other hdisk, System.step_media_other hdisk', hmedia c d hshown]

theorem System.step_config_eq {t t' : System} (h : t.config = t'.config) (k : Command) :
    (t.step k).2.config = (t'.step k).2.config := by
  have hselection : t.selection k = t'.selection k := by
    cases k with
    | selectDisk i => simp only [selection, h]
    | _ => rfl
  have hrescans : t.rescans k = t'.rescans k := by
    cases k with
    | createPartitionMb m fs => rw [rescans, rescans, System.creation_congr h]
    | _ => rfl
  rw [System.step_config, System.step_config, hselection, hrescans, h]

namespace MainView.Alike

variable {v v' : MainView}

/-- A command of the disk tool, or a line that is none. -/
theorem line (h : v.Alike hidden v') (line : CString) (inDisktool : Bool) :
    Alike hidden ⟨inDisktool, v.system.line line⟩ ⟨inDisktool, v'.system.line line⟩ := by
  rw [System.line, System.line]
  cases line.command with
  | none => exact ⟨rfl, h.config, h.served, h.served', h.media⟩
  | some k =>
    have hserved : ∀ t : System, t.disk.Served → (t.step k).2.disk.Served := by
      intro t ht
      rw [DiskState.Served, System.step_answers]
      exact ht
    exact ⟨rfl, System.step_config_eq h.config k, hserved _ h.served, hserved _ h.served',
      fun _ _ => System.step_media_eq h.config h.served h.served' h.media k⟩

/-- A line of the kernel reads at most. -/
theorem kernelLine (h : v.Alike hidden v') (line : CString) (inDisktool : Bool) :
    Alike hidden ⟨inDisktool, v.system.kernelLine line⟩
      ⟨inDisktool, v'.system.kernelLine line⟩ := by
  rw [System.kernelLine, System.kernelLine]
  split
  · exact ⟨rfl, by rw [h.config], h.served, h.served', h.media⟩
  · split
    · exact ⟨rfl, h.config, h.served, h.served', h.media⟩
    · split
      · refine ⟨rfl, h.config, ?_, ?_, fun c d hshown => ?_⟩
        · rw [DiskState.Served, DiskState.displayPartitions_answers]
          exact h.served
        · rw [DiskState.Served, DiskState.displayPartitions_answers]
          exact h.served'
        · rw [DiskState.displayPartitions_media, DiskState.displayPartitions_media]
          exact h.media c d hshown
      · exact ⟨rfl, h.config, h.served, h.served', h.media⟩

/-- One line, read by the same loop in both histories. -/
theorem turn (h : v.Alike hidden v') (line : CString) :
    (v.turn line).Alike hidden (v'.turn line) := by
  rw [MainView.turn, MainView.turn, h.reader]
  cases v'.inDisktool with
  | true => exact h.line line _
  | false => exact h.kernelLine line _

theorem after {m m' : Machine} (h : (MainView.boot m).Alike hidden (MainView.boot m'))
    (lines : List CString) : (MainView.after m lines).Alike hidden (MainView.after m' lines) := by
  induction lines using List.reverseRecOn with
  | nil => exact h
  | append_singleton lines line ih =>
    rw [MainView.after_concat, MainView.after_concat]
    exact ih.turn line

end MainView.Alike

end Alike

section Histories

variable {frame frame' : MainState → LocalArray} {m m' : Machine} {lines : List CString}
  {t t' : MainState}

/-- On two machines with the same hardware answers, that hold the same in all drive positions
outside `hidden`, no command failing: after the same lines, whatever lies on the stack, the
disks outside `hidden` hold the same, the same disk is selected, the table of disks is the same
and the same loop waits. What is on a drive never decides what happens to the others. -/
theorem drives_isolated (hidden : Set (Fin 2 × Fin 2)) (h : Reached frame m lines t)
    (h' : Reached frame' m' lines t') (hconfig : m.config = m'.config)
    (hserved : ∀ j, (m.bus.answers j).ok) (hserved' : ∀ j, (m'.bus.answers j).ok)
    (hmedia : ∀ c d, (c, d) ∉ hidden → m.bus.media c d = m'.bus.media c d) :
    (∀ c d, (c, d) ∉ hidden → t.machine.bus.media c d = t'.machine.bus.media c d) ∧
      t.machine.config = t'.machine.config ∧ t.inDisktool = t'.inDisktool := by
  have hboot : (MainView.boot m).Alike hidden (MainView.boot m') :=
    ⟨rfl, congrArg Config.rescan hconfig, hserved, hserved', hmedia⟩
  have halike : t.view.Alike hidden t'.view := by
    rw [h.view, h'.view]
    exact hboot.after lines
  exact ⟨halike.media, halike.config, halike.reader⟩

/-- The first drive is partitioned, with used slaves and with blank ones. -/
theorem drives_isolated_partitioning :
    ∃ t t', Reached (fun _ _ => 0) (bootMachine slaveInUse (fun _ => promptAnswer) primaryMaster)
        partitioningLines t ∧
      Reached (fun _ _ => 0xFF) (blankMachine primaryMaster) partitioningLines t' ∧
      (∀ c d, (c, d) ∉ {x : Fin 2 × Fin 2 | x.2 = 1} →
        t.machine.bus.media c d = t'.machine.bus.media c d) ∧
      t.machine.config = t'.machine.config ∧ t.inDisktool = t'.inDisktool := by
  obtain ⟨t, ht⟩ := Reached.exists (fun _ _ => 0)
    (bootMachine slaveInUse (fun _ => promptAnswer) primaryMaster) partitioningLines
  obtain ⟨t', ht'⟩ :=
    Reached.exists (fun _ _ => 0xFF) (blankMachine primaryMaster) partitioningLines
  refine ⟨t, t', ht, ht', drives_isolated _ ht ht' rfl (fun _ => ⟨rfl, rfl⟩)
    (fun _ => ⟨rfl, rfl⟩) fun c d hshown => ?_⟩
  funext a
  exact if_neg hshown

end Histories

end EtyOS
