import EtyOS.Library.Simulation
import EtyOS.Kernel.DiskState
import EtyOS.Allocator.FormatterPool

/-!
# What the commands can see

The disks and the table of disks, without the memory, the console and the
ports. `Does` says that a kernel function comes back from every state whose
pool is ready, leaves the pool ready, and acts on this view as a given
function.
-/

namespace EtyOS

open Library

/-- The part of the machine that the disk commands are about. -/
@[ext]
structure System where
  disk : DiskState
  config : Config

def Machine.system (s : Machine) : System := ⟨s.disk, s.config⟩

/-- The pool is in one of its two states between commands. -/
def Machine.Ready (s : Machine) : Prop := PoolReady s.poolBase s.memory

abbrev Does {α : Type} (x : Kernel α) (f : System → α × System) : Prop :=
  Simulates Machine.system Machine.Ready x f

/-- A function of the disks alone. -/
def System.onDisk {α : Type} (f : DiskState → α × DiskState) (t : System) : α × System :=
  ((f t.disk).1, { t with disk := (f t.disk).2 })

section Primitives

variable {s s' : Machine}

theorem Machine.Ready.of_config (h : s.Ready) (hconfig : s'.config = s.config)
    (hmem : s'.memory = s.memory) : s'.Ready := by
  have hbase : s'.poolBase = s.poolBase := congrArg Config.poolBase hconfig
  rw [Ready, hbase, hmem]
  exact h

theorem console_does (calls : List PrintCall) : Does (console calls) fun t => ((), t) :=
  fun s hs => ⟨s.print calls, rfl, rfl, hs⟩

theorem record_does (e : Event) :
    Does (record e) (System.onDisk fun k => ((), k.log e)) :=
  fun s hs => ⟨s.log e, rfl, rfl, hs⟩

theorem readSector_does (c d : Fin 2) (lba : UInt32) (buffer : ℕ) (m : Memory) :
    Does (ataReadSectorDisk c d lba buffer m) (System.onDisk fun k =>
      (if k.next.abort then (-1, m) else (0, (k.media c d (deviceLba lba)).toMemory m buffer),
        k.read c d lba)) := by
  intro s hs
  have hrun := run_readSector c d lba buffer m s
  by_cases habort : s.bus.next.abort = true
  · rw [if_pos habort] at hrun
    refine ⟨(s.read c d lba).print [.str "Error reading from disk."], ?_, rfl, hs⟩
    simpa [System.onDisk, Machine.system, habort] using hrun
  · rw [if_neg habort] at hrun
    refine ⟨s.read c d lba, ?_, rfl, hs⟩
    simpa [System.onDisk, Machine.system, habort] using hrun

theorem writeSector_does (c d : Fin 2) (lba : UInt32) (buffer : ℕ) (m : Memory) :
    Does (ataWriteSectorDisk c d lba buffer m) (System.onDisk fun k =>
      (if k.next.ok then 0 else -1, k.write c d lba (Sector.ofMemory m buffer))) := by
  intro s hs
  refine ⟨_, run_writeSector c d lba buffer m s, ?_, hs.of_config (by simp) (by simp)⟩
  simp [System.onDisk, Machine.system]

end Primitives

end EtyOS
