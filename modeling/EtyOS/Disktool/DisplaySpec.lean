import EtyOS.Disktool.DisktoolSpec

/-!
# The listings, seen from the disks

A listing reads sectors and prints. It reads sector 0 of the primary master,
and one more sector of that drive for every entry of type 0x83.
-/

namespace EtyOS

open Library

namespace DiskState

/-- The sector that is read for an ext4 entry. -/
def displayEntry (mbr : Memory) (i : ℕ) (k : DiskState) : DiskState :=
  if PartitionEntry.type mbr (entryAt i) = 0x83 then
    k.read 0 0 (PartitionEntry.lbaFirst mbr (entryAt i) + 2)
  else k

def displayEntries (mbr : Memory) : ℕ → ℕ → DiskState → DiskState
  | 0, _, k => k
  | count + 1, i, k => displayEntries mbr count (i + 1) (k.displayEntry mbr i)

def displayPartitions (k : DiskState) : DiskState :=
  if k.next.abort then k.read 0 0 0
  else (k.read 0 0 0).displayEntries (k.media 0 0 0).mbr 4 0

theorem displayEntries_media (mbr : Memory) (n i : ℕ) (k : DiskState) :
    (k.displayEntries mbr n i).media = k.media := by
  induction n generalizing i k with
  | zero => rfl
  | succ n ih =>
    rw [displayEntries, ih, displayEntry]
    split <;> rfl

/-- A listing writes nothing. -/
theorem displayPartitions_media (k : DiskState) : k.displayPartitions.media = k.media := by
  unfold displayPartitions
  split
  · rfl
  · rw [displayEntries_media, read_media]

end DiskState

section Disks

theorem displayVolumeName_does (lbaFirst : UInt32) :
    Does (displayVolumeName lbaFirst)
      (System.onDisk fun k => ((), k.read 0 0 (lbaFirst + 2))) := by
  have hquiet : Does (return ()) (System.onDisk fun k => ((), k)) := Simulates.pure ()
  refine (Simulates.bind (readSector_does 0 0 (lbaFirst + 2) 0 uninitialised) fun a =>
    Simulates.ite (fun _ => Simulates.ite (fun _ => console_does _) fun _ => hquiet)
      fun _ => hquiet).of_eq fun t => ?_
  simp only [System.onDisk]
  split_ifs <;> rfl

theorem displayDetails_does (mbr : Memory) (i : ℕ) :
    Does (displayDetails mbr i) (System.onDisk fun k => ((), k.displayEntry mbr i)) := by
  have hquiet : Does (return ()) (System.onDisk fun k => ((), k)) := Simulates.pure ()
  apply (Simulates.ite (fun _ => displayVolumeName_does _) fun _ => hquiet).of_eq
  intro t
  simp only [System.onDisk, DiskState.displayEntry]
  split <;> rfl

theorem displayEntry_does (mbr : Memory) (i : ℕ) :
    Does (displayEntry mbr i) (System.onDisk fun k => ((), k.displayEntry mbr i)) :=
  get_does fun s hs => Simulates.bind (console_does _) (fun _ =>
    Simulates.bind (displayDetails_does mbr i) fun _ =>
      Simulates.bind (console_does _) fun _ => console_does _) s hs

/-- An entry of type 0 is passed over. -/
theorem displayEntries_does (mbr : Memory) (n i : ℕ) :
    Does (displayEntries mbr n i) (System.onDisk fun k => ((), k.displayEntries mbr n i)) := by
  induction n generalizing i with
  | zero => exact Simulates.pure ()
  | succ n ih =>
    unfold displayEntries
    by_cases htype : PartitionEntry.type mbr (entryAt i) ≠ 0
    · rw [if_pos htype]
      exact Simulates.bind (displayEntry_does mbr i) fun _ => ih (i + 1)
    · rw [if_neg htype]
      have hskip : ∀ k : DiskState, k.displayEntry mbr i = k := by
        intro k
        rw [DiskState.displayEntry, if_neg (by rw [not_not.mp htype]; decide)]
      simpa only [DiskState.displayEntries, hskip] using ih (i + 1)

theorem displayPartitions_does :
    Does displayPartitions (System.onDisk fun k => ((), k.displayPartitions)) := by
  refine (Simulates.bind (readSector_does 0 0 0 0 uninitialised) fun a =>
    Simulates.ite (fun _ => console_does _) fun _ => Simulates.bind (console_does _) fun _ =>
      displayEntries_does a.2 4 0).of_eq fun t => ?_
  simp only [System.onDisk, DiskState.displayPartitions, Sector.mbr, deviceLba_zero]
  by_cases habort : t.disk.next.abort = true <;> simp [habort]

end Disks

/-- `display_partition_info`. -/
def System.displayPartitionInfo (t : System) : Unit × System :=
  if t.config.currentDisk = -1 then ((), t)
  else t.onDisk fun k => ((), k.displayPartitions)

theorem displayPartitionInfo_does :
    Does displayPartitionInfo System.displayPartitionInfo :=
  get_does fun s hs => SimulatesAt.ite Iff.rfl (fun _ => console_does _ s hs)
    fun _ => Simulates.bind (console_does _) (fun _ => displayPartitions_does) s hs

theorem listDisks_does : Does listDisks fun t => ((), t) :=
  Simulates.bind (console_does _) fun _ => get_does fun s hs => console_does _ s hs

end EtyOS
