import EtyOS.Disktool.Commands
import EtyOS.Partition.Trace

/-!
# Sector 0 under the commands

What a deletion does to the disk, and what any command does to sector 0 of any
disk: it fills a free slot, clears a slot, or leaves the sector as it is. Only
a creation and a deletion write, and only to the selected disk.
-/

namespace EtyOS

open Library

namespace Event

def IsWrite : Event → Prop
  | .write _ _ _ _ _ => True
  | _ => False

/-- A write that the device takes for sector 0. -/
def HitsMbr : Event → Prop
  | .write _ _ lba _ _ => deviceLba lba = 0
  | _ => False

theorem HitsMbr.isWrite {e : Event} (h : e.HitsMbr) : e.IsWrite := by
  cases e with
  | write _ _ _ _ _ => trivial
  | read _ _ _ _ => exact h
  | format _ _ _ _ _ _ => exact h

theorem OfFormatter.not_hitsMbr {e : Event} {c d : Fin 2} (h : e.OfFormatter c d) :
    ¬e.HitsMbr := by
  cases e with
  | write _ _ _ _ _ => exact h.2.2.deviceLba_ne_zero
  | read _ _ _ _ => exact id
  | format _ _ _ _ _ _ => exact id

end Event

namespace DiskState

variable (c d : Fin 2) (k : DiskState)

/-- The ways a deletion can go, each with its record and sector 0 after it. -/
inductive DeleteCase (i : ℕ) (k' : DiskState) : Prop
  | unreadable (hread : k.next.abort = true)
    (htrace : k'.trace = k.trace ++ [.read c d 0 false])
    (hmedia : k'.media = k.media)
  | missing (hread : k.next.abort = false) (htype : (k.media c d 0).slotType i = 0)
    (htrace : k'.trace = k.trace ++ [.read c d 0 true])
    (hmedia : k'.media = k.media)
  | cleared (hread : k.next.abort = false) (htype : (k.media c d 0).slotType i ≠ 0)
    (htrace : k'.trace = k.trace ++ [.read c d 0 true,
      .write c d 0 ((k.media c d 0).clearSlot i) (decide (k.read c d 0).next.ok)])
    (hzero : k'.media c d 0 =
      if (k.read c d 0).stores then (k.media c d 0).clearSlot i else k.media c d 0)

theorem delete_cases (i : ℕ) : k.DeleteCase c d i (k.delete c d i).2 := by
  cases hread : k.next.abort with
  | true =>
    refine .unreadable hread ?_ ?_
    · simp [delete, hread, read]
    · simp [delete, hread]
  | false =>
    by_cases htype : (k.media c d 0).slotType i = 0
    · refine .missing hread htype ?_ ?_
      · simp [delete, hread, htype, read]
      · simp [delete, hread, htype]
    · refine .cleared hread htype ?_ ?_
      · simp [delete, hread, htype, write, read]
      · simp only [delete, hread, htype, Bool.false_eq_true, if_false]
        by_cases hstores : (k.read c d 0).stores
        · have hsame := write_media_same (k.read c d 0) c d 0 ((k.media c d 0).clearSlot i) hstores
          rw [deviceLba_zero] at hsame
          rw [if_pos hstores, hsame]
        · simp [write, hstores]

/-- A deletion leaves the other disks alone. -/
theorem delete_media_other (i : ℕ) {c' d' : Fin 2} (h : ¬(c' = c ∧ d' = d)) (a : ℕ) :
    (k.delete c d i).2.media c' d' a = k.media c' d' a := by
  unfold delete
  split
  · rfl
  · split
    · rfl
    · exact write_media_of_ne _ _ _ _ _ fun hhit => h ⟨hhit.1, hhit.2.1⟩

/-- A listing only reads. -/
theorem displayEntries_trace (mbr : Memory) (n i : ℕ) :
    ∃ evs, (k.displayEntries mbr n i).trace = k.trace ++ evs ∧ ∀ e ∈ evs, ¬e.IsWrite := by
  induction n generalizing i k with
  | zero => exact ⟨[], by simp [displayEntries], by simp⟩
  | succ n ih =>
    obtain ⟨evs, htrace, hreads⟩ := ih (k.displayEntry mbr i) (i + 1)
    rw [displayEntries, htrace, displayEntry]
    split
    · refine ⟨.read 0 0 _ (!k.next.abort) :: evs, by simp only [read, List.append_assoc]; rfl, ?_⟩
      exact List.forall_mem_cons.mpr ⟨id, hreads⟩
    · exact ⟨evs, rfl, hreads⟩

theorem displayPartitions_trace :
    ∃ evs, k.displayPartitions.trace = k.trace ++ evs ∧ ∀ e ∈ evs, ¬e.IsWrite := by
  unfold displayPartitions
  split
  · exact ⟨[_], rfl, by simp [Event.IsWrite]⟩
  · obtain ⟨evs, htrace, hreads⟩ :=
      displayEntries_trace (k.read 0 0 0) (k.media 0 0 0).mbr 4 0
    refine ⟨.read 0 0 0 (!k.next.abort) :: evs, ?_, List.forall_mem_cons.mpr ⟨id, hreads⟩⟩
    rw [htrace, read, List.append_assoc]
    rfl

end DiskState

namespace System

variable {t : System} {k : Command}

/-- What a command does to the disks: it creates, it deletes, or it only reads. -/
inductive StepCase (t : System) (k : Command) (k' : DiskState) : Prop
  | creation (fs : FileSystemType) (n : UInt32) (hcreate : t.creation k = some (fs, n))
    (hdelete : t.deletion k = none)
    (hdisk : k' = t.disk.create fs t.selected.controller t.selected.drive 2048 n)
  | deletion (i : ℕ) (hcreate : t.creation k = none) (hdelete : t.deletion k = some i)
    (hdisk : k' = (t.disk.delete t.selected.controller t.selected.drive i).2)
  | quiet (evs : List Event) (hcreate : t.creation k = none) (hdelete : t.deletion k = none)
    (hmedia : k'.media = t.disk.media) (htrace : k'.trace = t.disk.trace ++ evs)
    (hreads : ∀ e ∈ evs, ¬e.IsWrite)

theorem deletion_of_creation {r : FileSystemType × UInt32} (h : t.creation k = some r) :
    t.deletion k = none := by
  cases k with
  | createPartitionMb m fs => rfl
  | formatDisk fs => rfl
  | _ => simp [creation] at h

theorem StepCase.of_same {k' : DiskState} (hcreate : t.creation k = none)
    (hdelete : t.deletion k = none) (h : k' = t.disk) : t.StepCase k k' := by
  subst h
  exact .quiet [] hcreate hdelete rfl (List.append_nil _).symm (by simp)

theorem step_cases (t : System) (k : Command) : t.StepCase k (t.step k).2.disk := by
  cases hcreate : t.creation k with
  | some r =>
    obtain ⟨fs, n⟩ := r
    exact .creation fs n hcreate (deletion_of_creation hcreate) (step_disk_of_creation hcreate)
  | none =>
    cases hdelete : t.deletion k with
    | some i => exact .deletion i hcreate hdelete (step_disk_of_deletion hdelete)
    | none =>
      cases k with
      | update => exact .of_same hcreate hdelete rfl
      | listDisks => exact .of_same hcreate hdelete rfl
      | selectDisk i =>
        rw [step, selectDisk]
        split <;> exact .of_same hcreate hdelete rfl
      | createPartitionMb m fs =>
        rw [step, createPartitionMb_rejected hcreate]
        exact .of_same hcreate hdelete rfl
      | formatDisk fs =>
        rw [step, formatDisk_rejected hcreate]
        exact .of_same hcreate hdelete rfl
      | deletePartition i =>
        rw [step, deletePartition_rejected hdelete]
        exact .of_same hcreate hdelete rfl
      | displayPartitionInfo =>
        rw [step, displayPartitionInfo]
        split
        · exact .of_same hcreate hdelete rfl
        · obtain ⟨evs, htrace, hreads⟩ := t.disk.displayPartitions_trace
          exact .quiet evs hcreate hdelete (DiskState.displayPartitions_media _) htrace hreads

/-- What a command can make of sector 0 of a disk. -/
inductive MbrChange (t : System) (k : Command) (c d : Fin 2) (x : Sector) : Prop
  | kept (hkept : x = t.disk.media c d 0)
  | filled (fs : FileSystemType) (n : UInt32) (i : ℕ) (hcreate : t.creation k = some (fs, n))
    (hdisk : c = t.selected.controller ∧ d = t.selected.drive)
    (hslot : t.disk.filledSlot c d = some i)
    (hfilled : x = (t.disk.media c d 0).fillSlot i fs.code 2048 n)
  | cleared (i : ℕ) (hdelete : t.deletion k = some i)
    (hdisk : c = t.selected.controller ∧ d = t.selected.drive)
    (hcleared : x = (t.disk.media c d 0).clearSlot i)

/-- A command leaves every disk but the selected one alone. -/
theorem step_media_other {c d : Fin 2}
    (h : ¬(c = t.selected.controller ∧ d = t.selected.drive)) (a : ℕ) :
    (t.step k).2.disk.media c d a = t.disk.media c d a := by
  cases t.step_cases k with
  | creation fs n _ _ hdisk =>
    rw [hdisk]
    exact DiskState.create_media_other _ _ _ _ _ h a
  | deletion i _ _ hdisk =>
    rw [hdisk]
    exact DiskState.delete_media_other _ _ _ _ h a
  | quiet _ _ _ hmedia _ _ => rw [hmedia]

theorem step_mbrChange (t : System) (k : Command) (c d : Fin 2) :
    t.MbrChange k c d ((t.step k).2.disk.media c d 0) := by
  by_cases hselected : c = t.selected.controller ∧ d = t.selected.drive
  · obtain ⟨rfl, rfl⟩ := hselected
    cases t.step_cases k with
    | creation fs n hcreate _ hdisk =>
      have hzero := t.disk.create_sector_zero fs t.selected.controller t.selected.drive n
      rw [hdisk]
      cases hslot : t.disk.filledSlot t.selected.controller t.selected.drive with
      | none => exact .kept (by rw [hzero, hslot])
      | some i => exact .filled fs n i hcreate ⟨rfl, rfl⟩ hslot (by rw [hzero, hslot])
    | deletion i _ hdelete hdisk =>
      rw [hdisk]
      cases t.disk.delete_cases t.selected.controller t.selected.drive i with
      | unreadable _ _ hmedia => exact .kept (by rw [hmedia])
      | missing _ _ _ hmedia => exact .kept (by rw [hmedia])
      | cleared _ _ _ hzero =>
        split at hzero
        · exact .cleared i hdelete ⟨rfl, rfl⟩ hzero
        · exact .kept hzero
    | quiet _ _ _ hmedia _ _ => exact .kept (by rw [hmedia])
  · exact .kept (step_media_other hselected 0)

end System

/-- Only a slot that was free is filled. -/
theorem DiskState.filledSlot_spec {k : DiskState} {c d : Fin 2} {i : ℕ}
    (h : k.filledSlot c d = some i) : (k.media c d 0).freeSlot = some i := by
  rw [filledSlot] at h
  split at h
  · simp at h
  · split at h
    · exact h
    · simp at h

end EtyOS
