import EtyOS.Disktool.Display
import EtyOS.Partition.CreateSpec

/-!
# The commands, seen from the disks and the table of disks

Every command of `disktool.c` comes back from every state with a ready pool and
acts on the disks and the table as one of the functions below. The later
results are about these functions; `Command.exec_does` carries them over to the
kernel.
-/

namespace EtyOS

open Library

section Scan

/-- What the scan of one drive position does to the table. -/
def Config.scan (c d : Fin 2) (g : Config) : Config :=
  match g.identify g.scanned with
  | none => { g with scanned := g.scanned + 1 }
  | some a =>
    { g with
      availableDisks := Function.update g.availableDisks g.numDisks
        (diskInfo c d (identifyBuffer a.word))
      numDisks := g.numDisks + 1
      scanned := g.scanned + 1 }

/-- `init_disktool`. -/
def Config.rescan (g : Config) : Config :=
  Config.scan 1 1 (Config.scan 1 0 (Config.scan 0 1 (Config.scan 0 0 { g with numDisks := 0 })))

/-- A function of the table alone. -/
def System.onConfig {α : Type} (f : Config → α × Config) (t : System) : α × System :=
  ((f t.config).1, { t with config := (f t.config).2 })

theorem run_identify (c d : Fin 2) (s : Machine) :
    (driver fun budget => Driver.identifyDrive budget c d).run s =
      some ((s.bus.identify s.bus.scanned).map (fun a => identifyBuffer a.word),
        s.identify c d) := by
  refine run_driver (run_identifyDrive c d s.toPorts fun a ha => ?_)
  unfold Ports.patience
  rw [ha]
  dsimp only
  omega

/-- The scan of a position comes back and concerns the table only. -/
theorem run_scanDrive (c d : Fin 2) (s : Machine) :
    ∃ s', (scanDrive c d).run s = some ((), s') ∧ s'.config = s.config.scan c d ∧
      s'.disk = s.disk ∧ s'.poolBase = s.poolBase ∧ s'.memory = s.memory := by
  rw [scanDrive, run_bind_of_run _ (run_identify c d s)]
  have hanswer : s.config.identify s.config.scanned = s.bus.identify s.bus.scanned := rfl
  cases hid : s.bus.identify s.bus.scanned with
  | none =>
    refine ⟨s.identify c d, rfl, ?_, rfl, rfl, rfl⟩
    simp only [Config.scan, hanswer, hid]
    rfl
  | some a =>
    refine ⟨_, run_modify _ _, ?_, rfl, rfl, rfl⟩
    simp only [Config.scan, hanswer, hid]
    rfl

theorem scanDrive_does (c d : Fin 2) :
    Does (scanDrive c d) (System.onConfig fun g => ((), g.scan c d)) := by
  intro s hs
  obtain ⟨s', hrun, hconfig, hdisk, hbase, hmemory⟩ := run_scanDrive c d s
  refine ⟨s', hrun, System.ext hdisk hconfig, ?_⟩
  rw [Machine.Ready, hbase, hmemory]
  exact hs

theorem initDisktool_does :
    Does initDisktool (System.onConfig fun g => ((), g.rescan)) := by
  have hreset : Does (modify fun s => { s with numDisks := 0 })
      (System.onConfig fun g => ((), { g with numDisks := 0 })) := fun s hs => ⟨_, rfl, rfl, hs⟩
  have hreport : Does (do
      let s ← get
      console [.str "Found ", .dec (UInt32.ofNat s.numDisks), .str " disks", .newline, .newline])
      (System.onConfig fun g => ((), g)) := fun s hs => ⟨s.print _, rfl, rfl, hs⟩
  exact (Simulates.bind hreset fun _ => Simulates.bind (console_does _) fun _ =>
    Simulates.bind (scanDrive_does 0 0) fun _ => Simulates.bind (scanDrive_does 0 1) fun _ =>
      Simulates.bind (scanDrive_does 1 0) fun _ => Simulates.bind (scanDrive_does 1 1) fun _ =>
        hreport)

end Scan

namespace System

variable (t : System)

/-- `available_disks[current_disk]`. -/
def selected : DiskInfo := t.config.availableDisks t.config.currentDisk.toNat

def selectDisk (i : ℤ) : ℤ × System :=
  if i < 0 ∨ i ≥ t.config.numDisks then (-1, t)
  else (0, { t with config := { t.config with currentDisk := i } })

/-- The creation of a partition on the selected disk. -/
def create (fs : FileSystemType) (count : UInt32) : System :=
  { t with disk := t.disk.create fs t.selected.controller t.selected.drive 2048 count }

def createPartitionMb (m : UInt32) (fs : FileSystemType) : ℤ × System :=
  if t.config.currentDisk = -1 then (-1, t)
  else if m.toUInt64 > t.selected.sizeMb then (-1, t)
  else (0, { t.create fs (mbToSectors m) with config := t.config.rescan })

def formatDisk (fs : FileSystemType) : ℤ × System :=
  if t.config.currentDisk = -1 then (-1, t)
  else if t.selected.sizeMb.toUInt32 < 32 then (-1, t)
  else (0, t.create fs (mbToSectors t.selected.sizeMb.toUInt32 - 2048))

end System

/-- `delete_partition` once its checks have passed. -/
def DiskState.delete (c d : Fin 2) (i : ℕ) (k : DiskState) : ℤ × DiskState :=
  if k.next.abort then (-1, k.read c d 0)
  else if (k.media c d 0).slotType i = 0 then (-1, k.read c d 0)
  else (if (k.read c d 0).next.ok then 0 else -1,
    (k.read c d 0).write c d 0 ((k.media c d 0).clearSlot i))

def System.deletePartition (t : System) (i : ℤ) : ℤ × System :=
  if t.config.currentDisk = -1 then (-1, t)
  else if i < 0 ∨ i ≥ 4 then (-1, t)
  else t.onDisk (DiskState.delete t.selected.controller t.selected.drive i.toNat)

section Commands

theorem get_does {α : Type} {g : Machine → Kernel α} {f : System → α × System}
    (h : ∀ s, s.Ready → SimulatesAt Machine.system Machine.Ready (g s) f s) :
    Does (do let s ← get; g s) f := by
  intro s hs
  rw [SimulatesAt, run_bind_of_run _ (run_get s)]
  exact h s hs

/-- A command that reports an error and returns -1. -/
theorem reject_does (error : List PrintCall) :
    Does (do console error; return -1 : Kernel ℤ) fun t => (-1, t) :=
  Simulates.bind (console_does error) fun _ => Simulates.pure (-1)

theorem selectDisk_does (i : ℤ) : Does (selectDisk i) fun t => t.selectDisk i :=
  get_does fun s hs => SimulatesAt.ite Iff.rfl (fun _ => reject_does _ s hs)
    fun _ => ⟨_, rfl, rfl, hs⟩

theorem createByType_does (fs : FileSystemType) (remark : String) (disk : DiskInfo)
    (startLba count : UInt32) :
    Does (createByType fs remark disk startLba count)
      (System.onDisk fun k => ((), k.create fs disk.controller disk.drive startLba count)) := by
  cases fs with
  | fat32 =>
    exact Simulates.bind (console_does _) fun _ =>
      createFat32Partition_does disk.controller disk.drive startLba count
  | ext4 => exact createExt4Partition_does disk.controller disk.drive startLba count

theorem createPartitionMb_does (m : UInt32) (fs : FileSystemType) :
    Does (createPartitionMb m fs) fun t => t.createPartitionMb m fs := by
  apply get_does
  intro s hs
  refine SimulatesAt.ite Iff.rfl (fun _ => reject_does _ s hs) fun _ => ?_
  refine SimulatesAt.ite Iff.rfl (fun _ => reject_does _ s hs) fun _ => ?_
  have hcreate := Simulates.bind (createByType_does fs "FAT32 PARTITION IS NOT RECOMMENDED"
    s.selected 2048 (mbToSectors m)) fun _ =>
      Simulates.bind initDisktool_does fun _ => Simulates.pure (0 : ℤ)
  exact (hcreate s hs).congr rfl

theorem formatDisk_does (fs : FileSystemType) :
    Does (formatDisk fs) fun t => t.formatDisk fs := by
  apply get_does
  intro s hs
  refine SimulatesAt.ite Iff.rfl (fun _ => reject_does _ s hs) fun _ => ?_
  refine SimulatesAt.ite Iff.rfl (fun _ => reject_does _ s hs) fun _ => ?_
  have hcreate := Simulates.bind (createByType_does fs "FAT32 PARTITIONS IS NOT RECOMMENDED"
    s.selected 2048 (mbToSectors s.selected.sizeMb.toUInt32 - 2048)) fun _ =>
      Simulates.pure (0 : ℤ)
  exact (hcreate s hs).congr rfl

theorem deleteEntry_does (disk : DiskInfo) (i : ℤ) :
    Does (deleteEntryWith entryType disk i)
      (System.onDisk (DiskState.delete disk.controller disk.drive i.toNat)) := by
  refine (Simulates.bind (readSector_does _ _ 0 0 _) fun a => Simulates.ite
    (fun _ => reject_does _) fun _ => Simulates.bind (Simulates.pure _) fun _ => Simulates.ite
      (fun _ => reject_does _) fun _ => Simulates.bind (writeSector_does _ _ 0 0 _) fun rc =>
        Simulates.ite (fun _ => reject_does _) fun _ => Simulates.bind (console_does _) fun _ =>
          Simulates.pure 0).of_eq fun t => ?_
  simp only [System.onDisk, DiskState.delete, ← type_mbr, ← clear_mbr, deviceLba_zero]
  by_cases habort : t.disk.next.abort = true
  · simp [habort]
  · by_cases htype : PartitionEntry.type
        ((t.disk.media disk.controller disk.drive 0).toMemory uninitialised 0)
        (entryAt i.toNat) = 0
    · simp [habort, htype]
    · by_cases hok : (t.disk.read disk.controller disk.drive 0).next.ok <;>
        simp [habort, htype, hok]

theorem deletePartition_does (i : ℤ) :
    Does (deletePartition i) fun t => t.deletePartition i := by
  apply get_does
  intro s hs
  refine SimulatesAt.ite Iff.rfl (fun _ => reject_does _ s hs) fun _ => ?_
  refine SimulatesAt.ite Iff.rfl (fun _ => reject_does _ s hs) fun _ => ?_
  exact (deleteEntry_does s.selected i s hs).congr rfl

end Commands

end EtyOS
