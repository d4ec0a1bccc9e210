import EtyOS.Disktool.Arguments
import EtyOS.Disktool.Listing
import EtyOS.Disktool.Refinement
import EtyOS.Kernel.MainSystem

/-!
# What a history of lines cannot do

Over every history of `kernel_main`, whatever the drives answer: the sectors before
the first partition and the bytes around the partition table stay as they were
found, a sector changes only by a creation or a deletion on the selected disk, and
a partition entry is lost only by a `delpart` with its index.
-/

namespace EtyOS

open Library Main

/-! ### One command -/

namespace DiskState

variable (fs : FileSystemType) (c d : Fin 2) (n : UInt32) (k : DiskState) {c' d' : Fin 2} {a : ℕ}

/-- A sector that neither the table nor a volume at sector 2048 can be in. -/
def Spared (a : ℕ) : Prop := a ≠ 0 ∧ ¬(2048 ≤ a ∧ a < 2 ^ 28)

theorem Spared.deviceLba_ne (h : Spared a) {lba : UInt32} (hlba : BehindMbr lba) :
    a ≠ deviceLba lba := by
  obtain ⟨hlow, hhigh⟩ := hlba
  rw [deviceLba, Nat.mod_eq_of_lt hhigh]
  rintro rfl
  exact h.2 ⟨hlow, hhigh⟩

theorem formatter_spared (h : Spared a) :
    (k.formatter fs c d 2048 n).2.media c' d' a = k.media c' d' a := by
  have hplan : ∀ plan : List (UInt32 × Sector), (∀ w ∈ plan, BehindMbr w.1) →
      ∀ k' : DiskState, (k'.writeAll c d plan).2.media c' d' a = k'.media c' d' a :=
    fun plan hbehind k' => writeAll_media_of_ne plan fun w hw hhit =>
      h.deviceLba_ne (hbehind w hw) hhit.2.2
  cases fs with
  | fat32 => exact hplan _ (fun w hw => fat32Plan_behindMbr n hw) k
  | ext4 =>
    simp only [formatter, formatExt4]
    split
    · rfl
    · split
      · rfl
      · exact (hplan _ (fun w hw => ext4Plan_behindMbr n hw) _).trans rfl

theorem write_zero_spared (h : Spared a) (x : Sector) :
    (k.write c d 0 x).media c' d' a = k.media c' d' a :=
  write_media_of_ne _ _ _ _ _ fun hhit => h.1 (hhit.2.2.trans deviceLba_zero)

theorem create_spared (h : Spared a) :
    (k.create fs c d 2048 n).media c' d' a = k.media c' d' a := by
  unfold create
  split
  · rfl
  · split
    · rfl
    · dsimp only
      split
      · rw [format, log_media, formatter_spared fs c d n _ h, write_zero_spared c d _ h, read_media]
      · rw [write_zero_spared c d _ h, read_media]

/-- A deletion writes sector 0 alone. -/
theorem delete_media_of_ne (i : ℕ) (h : a ≠ 0) :
    (k.delete c d i).2.media c' d' a = k.media c' d' a := by
  unfold delete
  split
  · rfl
  · split
    · rfl
    · exact write_media_of_ne _ _ _ _ _ fun hhit => h (hhit.2.2.trans deviceLba_zero)

end DiskState

namespace System

variable {t : System} {k : Command} {c d : Fin 2} {a : ℕ}

theorem step_spared (h : DiskState.Spared a) :
    (t.step k).2.disk.media c d a = t.disk.media c d a := by
  cases t.step_cases k with
  | creation fs n _ _ hdisk =>
    rw [hdisk]
    exact DiskState.create_spared _ _ _ _ _ h
  | deletion i _ _ hdisk =>
    rw [hdisk]
    exact DiskState.delete_media_of_ne _ _ _ _ h.1
  | quiet _ _ _ hmedia _ _ => rw [hmedia]

/-- The command can change sector `a` of the disk: it is a creation on it, or it is a
deletion on it and the sector is the MBR. -/
def MayWrite (t : System) (k : Command) (c d : Fin 2) (a : ℕ) : Prop :=
  (c = t.selected.controller ∧ d = t.selected.drive) ∧
    ((t.creation k).isSome ∨ (t.deletion k).isSome ∧ a = 0)

theorem mayWrite_of_ne (h : (t.step k).2.disk.media c d a ≠ t.disk.media c d a) :
    t.MayWrite k c d a := by
  have hselected : c = t.selected.controller ∧ d = t.selected.drive := by
    by_contra hother
    exact h (step_media_other hother a)
  refine ⟨hselected, ?_⟩
  cases t.step_cases k with
  | creation fs n hcreate _ _ => exact Or.inl (by rw [hcreate]; rfl)
  | deletion i _ hdelete hdisk =>
    refine Or.inr ⟨by rw [hdelete]; rfl, ?_⟩
    by_contra ha
    rw [hdisk] at h
    exact h (DiskState.delete_media_of_ne _ _ _ _ ha)
  | quiet _ _ _ hmedia _ _ => exact absurd (by rw [hmedia]) h

/-- An entry in use is changed only by a deletion with its index. -/
theorem deletion_of_entry_ne {i : Fin 4} (hused : ((t.disk.media c d 0).table i).type ≠ 0)
    (h : ((t.step k).2.disk.media c d 0).table i ≠ (t.disk.media c d 0).table i) :
    (c = t.selected.controller ∧ d = t.selected.drive) ∧ t.deletion k = some i.val := by
  cases t.step_mbrChange k c d with
  | kept hkept => exact absurd (by rw [hkept]) h
  | filled fs n j _ _ hslot hfilled =>
    obtain ⟨j, rfl, -, hfree⟩ := exists_entry_of_freeSlot (DiskState.filledSlot_spec hslot)
    have hne : i ≠ j := fun hij => hused (hij ▸ hfree)
    rw [hfilled, table_fillSlot, Function.update_of_ne hne] at h
    exact absurd rfl h
  | cleared j hdelete hdisk hcleared =>
    refine ⟨hdisk, ?_⟩
    have hj := deletion_lt hdelete
    by_cases hij : i = ⟨j, hj⟩
    · rw [hij]
      exact hdelete
    · rw [hcleared, table_clearSlot _ ⟨j, hj⟩, MbrTable.delete, Function.update_of_ne hij] at h
      exact absurd rfl h

/-- An entry that is in use after a command, and was not the same before, has been filled by a
creation into the lowest free slot. -/
theorem creation_of_entry_ne {i : Fin 4}
    (hused : (((t.step k).2.disk.media c d 0).table i).type ≠ 0)
    (h : ((t.step k).2.disk.media c d 0).table i ≠ (t.disk.media c d 0).table i) :
    (c = t.selected.controller ∧ d = t.selected.drive) ∧
      (t.disk.media c d 0).table.freeSlot = some i ∧
      ∃ fs n, t.creation k = some (fs, n) ∧ ((t.step k).2.disk.media c d 0).table i =
        ((t.disk.media c d 0).table i).fill fs.code.toNat 2048 n.toNat := by
  cases t.step_mbrChange k c d with
  | kept hkept => exact absurd (by rw [hkept]) h
  | filled fs n j hcreate hdisk hslot hfilled =>
    obtain ⟨j, rfl, hlowest, -⟩ := exists_entry_of_freeSlot (DiskState.filledSlot_spec hslot)
    by_cases hij : i = j
    · subst hij
      refine ⟨hdisk, hlowest, fs, n, hcreate, ?_⟩
      rw [hfilled, table_fillSlot, Function.update_self]
      rfl
    · rw [hfilled, table_fillSlot, Function.update_of_ne hij] at h
      exact absurd rfl h
  | cleared j hdelete _ hcleared =>
    have hj := deletion_lt hdelete
    rw [hcleared, table_clearSlot _ ⟨j, hj⟩, MbrTable.delete] at hused h
    by_cases hij : i = ⟨j, hj⟩
    · rw [hij, Function.update_self] at hused
      exact absurd rfl hused
    · rw [Function.update_of_ne hij] at h
      exact absurd rfl h

/-- What passes the checks of a deletion. -/
theorem deletion_eq_some {i : ℕ} (h : t.deletion k = some i) :
    k = .deletePartition i ∧ t.config.currentDisk ≠ -1 := by
  cases k with
  | deletePartition j =>
    simp only [deletion] at h
    split at h
    · simp at h
    · rename_i hchecks
      obtain rfl := Option.some.inj h
      have hj : (j.toNat : ℤ) = j := Int.toNat_of_nonneg (by omega)
      exact ⟨by rw [hj], fun hcurrent => hchecks (Or.inl hcurrent)⟩
  | _ => simp [deletion] at h

end System

/-! ### One line -/

namespace MainView

variable {v : MainView} {line : CString} {c d : Fin 2} {a : ℕ}

/-- The line is a command of the disk tool, or it leaves all sectors alone. -/
theorem turn_media_cases (v : MainView) (line : CString) :
    (v.turn line).system.disk.media = v.system.disk.media ∨
      ∃ k, v.inDisktool = true ∧ line.command = some k ∧
        (v.turn line).system = (v.system.step k).2 := by
  by_cases hreader : v.inDisktool = true
  · rw [turn, if_pos hreader, System.line]
    cases line.command with
    | none => exact Or.inl rfl
    | some k => exact Or.inr ⟨k, hreader, rfl, rfl⟩
  · rw [turn, if_neg hreader, System.kernelLine]
    refine Or.inl ?_
    split
    · rfl
    · split
      · rfl
      · split
        · exact DiskState.displayPartitions_media _
        · rfl

theorem turn_spared (h : DiskState.Spared a) :
    (v.turn line).system.disk.media c d a = v.system.disk.media c d a := by
  obtain hmedia | ⟨k, -, -, hstep⟩ := v.turn_media_cases line
  · rw [hmedia]
  · rw [hstep, System.step_spared h]

theorem turn_outside {b : Fin 512} (h : OutsideTable b) :
    (v.turn line).system.disk.media c d 0 b = v.system.disk.media c d 0 b := by
  obtain hmedia | ⟨k, -, -, hstep⟩ := v.turn_media_cases line
  · rw [hmedia]
  · rw [hstep, System.step_outside _ _ _ _ h]

end MainView

/-! ### Histories -/

section Histories

variable {frame : MainState → LocalArray} {m : Machine} {lines later : List CString}
  {line : CString} {t t' : MainState}

theorem turn_view (ht : t.machine.Ready) (hrun : (turn frame line).run t = some ((), t')) :
    t'.view = t.view.turn line ∧ t'.machine.Ready :=
  ((turn_does frame line).inversion ht hrun).2

theorem Reached.append (h : Reached frame m lines t)
    (hrun : Run (turn frame) (fun _ _ => True) t later t') : Reached frame m (lines ++ later) t' := by
  obtain ⟨t₀, hboot, hlines⟩ := h
  exact ⟨t₀, hboot, hlines.append hrun⟩

/-- What every turn keeps of the first disks. -/
theorem MainView.after_induct {P : MainView → Prop} (hboot : P (MainView.boot m))
    (hturn : ∀ v line, P v → P (v.turn line)) (lines : List CString) : P (MainView.after m lines) := by
  induction lines using List.reverseRecOn with
  | nil => exact hboot
  | append_singleton lines line ih =>
    rw [MainView.after_concat]
    exact hturn _ _ ih

theorem Reached.media (h : Reached frame m lines t) :
    t.machine.bus.media = (MainView.after m lines).system.disk.media :=
  congrArg (fun v : MainView => v.system.disk.media) h.view

theorem Reached.spared (h : Reached frame m lines t) (c d : Fin 2) {a : ℕ}
    (ha : DiskState.Spared a) : t.machine.bus.media c d a = m.bus.media c d a := by
  rw [h.media]
  exact MainView.after_induct (P := fun v => v.system.disk.media c d a = m.bus.media c d a) rfl
    (fun v line hv => (MainView.turn_spared ha).trans hv) lines

theorem Reached.outside (h : Reached frame m lines t) (c d : Fin 2) {b : Fin 512}
    (hb : OutsideTable b) : t.machine.bus.media c d 0 b = m.bus.media c d 0 b := by
  rw [h.media]
  exact MainView.after_induct (P := fun v => v.system.disk.media c d 0 b = m.bus.media c d 0 b) rfl
    (fun v line hv => (MainView.turn_outside hb).trans hv) lines

/-- In every history the sectors up to the first partition, those that the device cannot
address, and the bytes around the partition table are as the kernel has found them. -/
theorem boot_area_survives (h : Reached frame m lines t) (c d : Fin 2) :
    (∀ a, DiskState.Spared a → t.machine.bus.media c d a = m.bus.media c d a) ∧
      ∀ b, OutsideTable b → t.machine.bus.media c d 0 b = m.bus.media c d 0 b :=
  ⟨fun _ ha => h.spared c d ha, fun _ hb => h.outside c d hb⟩

/-- Two partitions are asked for on the only drive. -/
def partitioningLines : List CString :=
  [⟨chars "disktool", by decide⟩, selectFirstLine, ⟨chars "newpart 4", by decide⟩,
    ⟨chars "newpart 8 ext4", by decide⟩]

theorem boot_area_survives_partitioning :
    ∃ t, Reached (fun _ _ => 0) (blankMachine primaryMaster) partitioningLines t ∧
      (∀ a, DiskState.Spared a → t.machine.bus.media 0 0 a =
        (blankMachine primaryMaster).bus.media 0 0 a) ∧
      ∀ b, OutsideTable b → t.machine.bus.media 0 0 0 b =
        (blankMachine primaryMaster).bus.media 0 0 0 b := by
  obtain ⟨t, ht⟩ := Reached.exists (fun _ _ => 0) (blankMachine primaryMaster) partitioningLines
  exact ⟨t, ht, boot_area_survives ht 0 0⟩

/-- After `lines`, one of the lines of `later` is read in the state `t`. -/
def ReadsIn (frame : MainState → LocalArray) (m : Machine) (lines later : List CString)
    (line : CString) (t : MainState) : Prop :=
  ∃ before rest, later = before ++ line :: rest ∧ Reached frame m (lines ++ before) t

/-- A turn after which `P` no longer holds, if it has held before. -/
theorem Reached.exists_breaking {P : MainView → Prop} (h : Reached frame m lines t)
    (hrun : Run (turn frame) (fun _ _ => True) t later t') (ht : P t.view) (ht' : ¬P t'.view) :
    ∃ line t₁, ReadsIn frame m lines later line t₁ ∧ P t₁.view ∧ ¬P (t₁.view.turn line) := by
  obtain ⟨before, line, rest, t₁, t₂, ⟨⟩, hlater, hbefore, -, hexec, -, hkept, hbroken⟩ :=
    hrun.exists_breaking (P := fun t => P t.view) ht ht'
  have hreached := h.append hbefore
  rw [(turn_view hreached.waits.ready hexec).1] at hbroken
  exact ⟨line, t₁, ⟨before, rest, hlater, hreached⟩, hkept, hbroken⟩

/-- A sector of a disk changes only by a line of the disk tool that creates or deletes a
partition on this disk, which is selected then; a deletion changes sector 0 alone. -/
theorem sector_changed_by (h : Reached frame m lines t)
    (hrun : Run (turn frame) (fun _ _ => True) t later t') (c d : Fin 2) (a : ℕ) :
    t'.machine.bus.media c d a = t.machine.bus.media c d a ∨
      ∃ line t₁ k, ReadsIn frame m lines later line t₁ ∧ t₁.inDisktool = true ∧
        line.command = some k ∧ t₁.machine.system.MayWrite k c d a := by
  by_contra hnone
  obtain ⟨hchanged, hnone⟩ := not_or.mp hnone
  obtain ⟨line, t₁, hreads, hkept, hbroken⟩ := h.exists_breaking
    (P := fun v => v.system.disk.media c d a = t.machine.bus.media c d a) hrun rfl hchanged
  obtain hmedia | ⟨k, hreader, hcommand, hstep⟩ := t₁.view.turn_media_cases line
  · rw [hmedia] at hbroken
    exact hbroken hkept
  · rw [hstep, ← hkept] at hbroken
    exact hnone ⟨line, t₁, k, hreads, hreader, hcommand, System.mayWrite_of_ne hbroken⟩

theorem sector_changed_by_partitioning :
    ∃ t t', Reached (fun _ _ => 0) (blankMachine primaryMaster) [] t ∧
      Run (turn fun _ _ => 0) (fun _ _ => True) t partitioningLines t' ∧
      ∃ line t₁ k, ReadsIn (fun _ _ => 0) (blankMachine primaryMaster) [] partitioningLines
        line t₁ ∧ t₁.inDisktool = true ∧ line.command = some k ∧
        t₁.machine.system.MayWrite k 0 0 0 := by
  obtain ⟨t', t, hboot, hrun⟩ :=
    Reached.exists (fun _ _ => 0) (blankMachine primaryMaster) partitioningLines
  have ht : Reached (fun _ _ => 0) (blankMachine primaryMaster) [] t := ⟨t, hboot, .nil⟩
  have hchanged : t'.machine.bus.media 0 0 0 ≠ t.machine.bus.media 0 0 0 := by
    rw [(ht.append hrun).media, ht.media]
    exact fun heq => absurd (congrFun heq 450) (by decide +kernel)
  exact ⟨t, t', ht, hrun, (sector_changed_by ht hrun 0 0 0).resolve_left hchanged⟩

/-- A partition entry in use stays as it is until the disk tool reads a `delpart` with its
index while its disk is selected. -/
theorem entry_lost_by (h : Reached frame m lines t)
    (hrun : Run (turn frame) (fun _ _ => True) t later t') (c d : Fin 2) (i : Fin 4)
    (hused : ((t.machine.bus.media c d 0).table i).type ≠ 0) :
    (t'.machine.bus.media c d 0).table i = (t.machine.bus.media c d 0).table i ∨
      ∃ line t₁, ReadsIn frame m lines later line t₁ ∧ t₁.inDisktool = true ∧
        line.command = some (.deletePartition i.val) ∧ t₁.machine.currentDisk ≠ -1 ∧
        (c = t₁.machine.selected.controller ∧ d = t₁.machine.selected.drive) ∧
        (t₁.machine.bus.media c d 0).table i = (t.machine.bus.media c d 0).table i := by
  by_contra hnone
  obtain ⟨hchanged, hnone⟩ := not_or.mp hnone
  obtain ⟨line, t₁, hreads, hkept, hbroken⟩ := h.exists_breaking
    (P := fun v => (v.system.disk.media c d 0).table i = (t.machine.bus.media c d 0).table i)
    hrun rfl hchanged
  obtain hmedia | ⟨k, hreader, hcommand, hstep⟩ := t₁.view.turn_media_cases line
  · rw [hmedia] at hbroken
    exact hbroken hkept
  · rw [← hkept] at hused
    rw [hstep, ← hkept] at hbroken
    obtain ⟨hdisk, hdelete⟩ := System.deletion_of_entry_ne hused hbroken
    obtain ⟨rfl, hcurrent⟩ := System.deletion_eq_some hdelete
    exact hnone ⟨line, t₁, hreads, hreader, hcommand, hcurrent, hdisk, hkept⟩

/-- The first slot of sector 0 is in use. -/
def usedMachine : Machine :=
  bootMachine (fun _ _ _ => usedSector) (fun _ => promptAnswer) primaryMaster

def deletingLines : List CString :=
  [⟨chars "disktool", by decide⟩, selectFirstLine, ⟨chars "delpart 0", by decide⟩]

theorem entry_lost_by_deleting :
    ∃ t t', Reached (fun _ _ => 0) usedMachine [] t ∧
      Run (turn fun _ _ => 0) (fun _ _ => True) t deletingLines t' ∧
      ∃ line t₁, ReadsIn (fun _ _ => 0) usedMachine [] deletingLines line t₁ ∧
        t₁.inDisktool = true ∧ line.command = some (.deletePartition (0 : Fin 4).val) ∧
        t₁.machine.currentDisk ≠ -1 ∧
        (0 = t₁.machine.selected.controller ∧ 0 = t₁.machine.selected.drive) ∧
        (t₁.machine.bus.media 0 0 0).table 0 = (t.machine.bus.media 0 0 0).table 0 := by
  obtain ⟨t', t, hboot, hrun⟩ := Reached.exists (fun _ _ => 0) usedMachine deletingLines
  have ht : Reached (fun _ _ => 0) usedMachine [] t := ⟨t, hboot, .nil⟩
  have hused : ((t.machine.bus.media 0 0 0).table 0).type ≠ 0 := by
    rw [ht.media]
    decide +kernel
  have hlost : (t'.machine.bus.media 0 0 0).table 0 ≠ (t.machine.bus.media 0 0 0).table 0 := by
    rw [(ht.append hrun).media, ht.media]
    decide +kernel
  exact ⟨t, t', ht, hrun, (entry_lost_by ht hrun 0 0 0 hused).resolve_left hlost⟩

/-- A partition entry in use has been found so, or it is what the disk tool has made of the
lowest free slot for a line that was typed, while its disk was selected: a volume of the type
and the size asked for, from sector 2048 on. -/
theorem entry_made_by (h : Reached frame m lines t)
    (hrun : Run (turn frame) (fun _ _ => True) t later t') (c d : Fin 2) (i : Fin 4)
    (hused : ((t'.machine.bus.media c d 0).table i).type ≠ 0) :
    (t'.machine.bus.media c d 0).table i = (t.machine.bus.media c d 0).table i ∨
      ∃ line t₁ k fs n, ReadsIn frame m lines later line t₁ ∧ t₁.inDisktool = true ∧
        line.command = some k ∧ t₁.machine.system.creation k = some (fs, n) ∧
        (c = t₁.machine.selected.controller ∧ d = t₁.machine.selected.drive) ∧
        (t₁.machine.bus.media c d 0).table.freeSlot = some i ∧
        (t'.machine.bus.media c d 0).table i =
          ((t₁.machine.bus.media c d 0).table i).fill fs.code.toNat 2048 n.toNat := by
  by_contra hnone
  obtain ⟨hchanged, hnone⟩ := not_or.mp hnone
  -- the line after which the slot holds the entry that it holds at the end
  obtain ⟨line, t₁, hreads, hother, hmade⟩ := h.exists_breaking
    (P := fun v => (v.system.disk.media c d 0).table i ≠ (t'.machine.bus.media c d 0).table i)
    hrun (Ne.symm hchanged) (not_not.mpr rfl)
  have hentry := not_not.mp hmade
  obtain hmedia | ⟨k, hreader, hcommand, hstep⟩ := t₁.view.turn_media_cases line
  · rw [hmedia] at hentry
    exact hother hentry
  · rw [hstep] at hentry
    rw [← hentry] at hused hother
    obtain ⟨hdisk, hslot, fs, n, hcreate, hfilled⟩ :=
      System.creation_of_entry_ne hused (Ne.symm hother)
    exact hnone ⟨line, t₁, k, fs, n, hreads, hreader, hcommand, hcreate, hdisk, hslot,
      hentry.symm.trans hfilled⟩

theorem entry_made_by_partitioning :
    ∃ t t', Reached (fun _ _ => 0) (blankMachine primaryMaster) [] t ∧
      Run (turn fun _ _ => 0) (fun _ _ => True) t partitioningLines t' ∧
      ∃ line t₁ k fs n, ReadsIn (fun _ _ => 0) (blankMachine primaryMaster) []
          partitioningLines line t₁ ∧ t₁.inDisktool = true ∧ line.command = some k ∧
        t₁.machine.system.creation k = some (fs, n) ∧
        (0 = t₁.machine.selected.controller ∧ 0 = t₁.machine.selected.drive) ∧
        (t₁.machine.bus.media 0 0 0).table.freeSlot = some 0 ∧
        (t'.machine.bus.media 0 0 0).table 0 =
          ((t₁.machine.bus.media 0 0 0).table 0).fill fs.code.toNat 2048 n.toNat := by
  obtain ⟨t', t, hboot, hrun⟩ :=
    Reached.exists (fun _ _ => 0) (blankMachine primaryMaster) partitioningLines
  have ht : Reached (fun _ _ => 0) (blankMachine primaryMaster) [] t := ⟨t, hboot, .nil⟩
  have hused : ((t'.machine.bus.media 0 0 0).table 0).type ≠ 0 := by
    rw [(ht.append hrun).media]
    decide +kernel
  have hmade : (t'.machine.bus.media 0 0 0).table 0 ≠ (t.machine.bus.media 0 0 0).table 0 := by
    rw [(ht.append hrun).media, ht.media]
    decide +kernel
  exact ⟨t, t', ht, hrun, (entry_made_by ht hrun 0 0 0 hused).resolve_left hmade⟩

end Histories

/-! ### The filesystem check over a history -/

namespace LocalArray

variable {array array' : LocalArray}

theorem hasSignature_congr {a : ℤ} {text : List UInt8}
    (h : ∀ b, a ≤ b → b < a + text.length → array b = array' b) :
    array.HasSignature a text ↔ array'.HasSignature a text := by
  induction text generalizing a with
  | nil => exact Iff.rfl
  | cons c text ih =>
    rw [List.length_cons] at h
    rw [HasSignature, HasSignature, h a le_rfl (by omega),
      ih fun b hb hlt => h b (by omega) (by omega)]

theorem dumpCalls_congr {i : ℤ} {n : ℕ} (h : ∀ b, i ≤ b → b < i + n → array b = array' b) :
    array.dumpCalls i n = array'.dumpCalls i n := by
  induction n generalizing i with
  | zero => rfl
  | succ n ih =>
    rw [dumpCalls, dumpCalls, h i le_rfl (by omega), ih fun b hb hlt => h b (by omega) (by omega)]

/-- The stack around the array does not show within it, the array not around it. -/
theorem ofMemory_within (m : Memory) (frame frame' : LocalArray) {b : ℤ} (h : 0 ≤ b ∧ b < 512) :
    ofMemory m frame b = ofMemory m frame' b := by
  rw [ofMemory, ofMemory, if_pos h, if_pos h]

theorem ofMemory_beyond (m : Memory) (frame : LocalArray) {b : ℤ} (h : 512 ≤ b) :
    ofMemory m frame b = frame b :=
  if_neg (by omega)

end LocalArray

section Check

variable {frame : MainState → LocalArray} {m : Machine} {lines : List CString} {line : CString}
  {t : MainState}

/-- What `checkfs` prints for a boot sector that it could read. `disc` says that the five
bytes at offset 0x8001 of its array of 512 bytes, on the stack, are the signature of a CD. -/
def bootReport (boot : Sector) (disc : Prop) [Decidable disc] : List PrintCall :=
  let array := LocalArray.ofMemory boot.mbr fun _ => 0
  [.str "Checking filesystem...", .newline] ++
    (if array.HasSignature 0x52 (chars "FAT32") then [.str "Filesystem detected: FAT32"]
    else if array.HasSignature 0x36 (chars "FAT16") then [.str "Filesystem detected: FAT16"]
    else if disc then [.str "Filesystem detected: ISO9660 (CD-ROM)"]
    else [.str "Filesystem type: Unknown or unsupported.", .str "Boot Sector Data: "] ++
      array.dumpCalls 0 64 ++ [.newline]) ++ [.newline]

theorem checkCalls_of_read (s : Machine) (stack : LocalArray) (hread : s.bus.next.abort = false) :
    s.checkCalls stack =
      bootReport (s.bus.media 0 0 0) (stack.HasSignature 0x8001 (chars "CD001")) := by
  have hnext : s.disk.next = s.bus.next := rfl
  have hwithin (a : ℤ) (text : List UInt8) (ha : 0 ≤ a) (hlt : a + text.length ≤ 512) :
      (LocalArray.ofMemory (s.bus.media 0 0 0).mbr stack).HasSignature a text ↔
        (LocalArray.ofMemory (s.bus.media 0 0 0).mbr fun _ => 0).HasSignature a text :=
    LocalArray.hasSignature_congr fun b hb hb' => LocalArray.ofMemory_within _ _ _ (by omega)
  have hbeyond : (LocalArray.ofMemory (s.bus.media 0 0 0).mbr stack).HasSignature 0x8001
      (chars "CD001") ↔ stack.HasSignature 0x8001 (chars "CD001") :=
    LocalArray.hasSignature_congr fun b hb _ => LocalArray.ofMemory_beyond _ _ (by omega)
  have hdump : (LocalArray.ofMemory (s.bus.media 0 0 0).mbr stack).dumpCalls 0 64 =
      (LocalArray.ofMemory (s.bus.media 0 0 0).mbr fun _ => 0).dumpCalls 0 64 :=
    LocalArray.dumpCalls_congr fun b hb hlt => LocalArray.ofMemory_within _ _ _ (by omega)
  rw [Machine.checkCalls, DiskState.loadCalls, Machine.bootArray, hnext, hread,
    if_neg Bool.false_ne_true, if_neg Bool.false_ne_true, List.append_nil, LocalArray.classifyCalls,
    bootReport, hdump, if_congr (hwithin _ _ (by decide) (by decide)) rfl
      (if_congr (hwithin _ _ (by decide) (by decide)) rfl (if_congr hbeyond rfl rfl))]

/-- The partition table is not looked at. -/
theorem bootReport_congr {x x' : Sector} (h : ∀ b, OutsideTable b → x b = x' b) (disc : Prop)
    [Decidable disc] : bootReport x disc = bootReport x' disc := by
  have hbyte (b : ℤ) (hb : 0 ≤ b) (hlt : b < 446) :
      LocalArray.ofMemory x.mbr (fun _ => 0) b = LocalArray.ofMemory x'.mbr (fun _ => 0) b := by
    have hrange : b.toNat < 512 := by omega
    rw [LocalArray.ofMemory, LocalArray.ofMemory, if_pos (by omega), if_pos (by omega),
      Sector.mbr_apply _ hrange, Sector.mbr_apply _ hrange]
    refine h _ (Or.inl ?_)
    change b.toNat < 446
    omega
  have hsignature (a : ℤ) (text : List UInt8) (ha : 0 ≤ a) (hlt : a + text.length ≤ 446) :
      (LocalArray.ofMemory x.mbr fun _ => 0).HasSignature a text ↔
        (LocalArray.ofMemory x'.mbr fun _ => 0).HasSignature a text :=
    LocalArray.hasSignature_congr fun b hb hb' => hbyte b (by omega) (by omega)
  have hdump : (LocalArray.ofMemory x.mbr fun _ => 0).dumpCalls 0 64 =
      (LocalArray.ofMemory x'.mbr fun _ => 0).dumpCalls 0 64 :=
    LocalArray.dumpCalls_congr fun b hb hlt => hbyte b hb (by omega)
  rw [bootReport, bootReport, hdump, if_congr (hsignature _ _ (by decide) (by decide)) rfl
    (if_congr (hsignature _ _ (by decide) (by decide)) rfl rfl)]

/-- Wherever in a history `checkfs` is typed and the drive does not refuse to read, it reports
on the boot sector that the kernel has found: no partitioning and no formatting in between can
change it. What lies on the stack decides between a CD and a dump of the sector, unless the
sector has the signature of a FAT volume. -/
theorem checkfs_reports (h : Reached frame m lines t) (hreader : t.inDisktool = false)
    (hline : line.bytes = chars "checkfs") (hread : t.machine.bus.next.abort = false) :
    ∃ t', (turn frame line).run t = some ((), t') ∧
      t'.output = t.output ++ (.newline ::
        (bootReport (m.bus.media 0 0 0)
          ((frame (t.show [.newline])).HasSignature 0x8001 (chars "CD001")) ++
            prompt t.color)).map .call := by
  set stack := frame (t.show [.newline]) with hstack
  have hreport : t.machine.checkCalls stack =
      bootReport (m.bus.media 0 0 0) (stack.HasSignature 0x8001 (chars "CD001")) :=
    (checkCalls_of_read _ _ hread).trans (bootReport_congr (fun _ hb => h.outside 0 0 hb) _)
  have hshown : (t.show [.newline]).machine.checkCalls stack = t.machine.checkCalls stack := rfl
  have hturn : Reaches (turn frame line) t fun _ t' => t'.output = t.output ++
      (.newline :: (t.machine.checkCalls stack ++ prompt t.color)).map .call := by
    let t₁ := (t.show [.newline]).checked frame
    have hkernel : t₁.inDisktool = false := hreader
    have houtput : t₁.output =
        t.output ++ (PrintCall.newline :: t.machine.checkCalls stack).map .call := by
      rw [← hshown, List.map_cons]
      exact List.append_assoc _ [_] _
    refine Reaches.of_run (run_exec_console _ _) ?_
    change Reaches (if t.inDisktool = true then _ else _ : Main Unit) _ _
    rw [if_neg (by simp [hreader]), kernelLine_checkfs _ _ hline]
    refine Reaches.of_run (checkfs_run _ _) ⟨(), t₁.show (prompt t.color), ?_, ?_⟩
    · change (exec (console (if t₁.inDisktool = true then _ else _))).run t₁ = _
      rw [if_neg (by simp [hkernel])]
      rfl
    · rw [MainState.show, houtput]
      simp
  obtain ⟨⟨⟩, t', hrun, houtput⟩ := hturn
  exact ⟨t', hrun, by rw [houtput, hreport]⟩

/-- The boot sector of a FAT32 volume, with an empty partition table. -/
def fatBootSector : Sector := fun i =>
  if 0x52 ≤ i.val then (chars "FAT32").getD (i.val - 0x52) 0 else 0

theorem checkfs_reports_partitioned :
    ∃ t t', Reached (fun _ _ => 0)
        (bootMachine (fun _ _ _ => fatBootSector) (fun _ => promptAnswer) primaryMaster)
        (partitioningLines ++ [⟨chars "exit", by decide⟩]) t ∧
      (turn (fun _ _ => 0) ⟨chars "checkfs", by decide⟩).run t = some ((), t') ∧
      t'.output = t.output ++ ([PrintCall.newline, .str "Checking filesystem...", .newline,
        .str "Filesystem detected: FAT32", .newline] ++ prompt t.color).map .call := by
  obtain ⟨t, ht⟩ := Reached.exists (fun _ _ => 0)
    (bootMachine (fun _ _ _ => fatBootSector) (fun _ => promptAnswer) primaryMaster)
    (partitioningLines ++ [⟨chars "exit", by decide⟩])
  have hreader : t.inDisktool = false := ht.waits.inDisktool
  have hread : t.machine.bus.next.abort = false :=
    (congrArg (fun v : MainView => v.system.disk.next.abort) ht.view).trans (by decide +kernel)
  have hline : (⟨chars "checkfs", by decide⟩ : CString).bytes = chars "checkfs" := rfl
  obtain ⟨t', hrun, houtput⟩ := checkfs_reports ht hreader hline hread
  exact ⟨t, t', ht, hrun, houtput⟩

end Check

end EtyOS
