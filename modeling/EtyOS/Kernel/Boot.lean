import EtyOS.Kernel.System

/-!
# The state after booting

The pool has been initialised, no disk is selected and none has been counted;
everything else is arbitrary. `bootMachine` is such a state with given disks,
answers and IDENTIFY data.
-/

namespace EtyOS

open Library

/-- No disk command has run since `memory_allocator_init`. -/
structure Machine.Booted (s : Machine) : Prop where
  pool : ∃ m, s.memory = memoryAllocatorInit s.poolBase m
  currentDisk : s.currentDisk = -1
  numDisks : s.numDisks = 0

theorem Machine.Booted.fresh {s : Machine} (h : s.Booted) : PoolFresh s.poolBase s.memory := by
  obtain ⟨m, hm⟩ := h.pool
  rw [hm]
  exact poolFresh_init m

theorem Machine.Booted.ready {s : Machine} (h : s.Booted) : s.Ready := Or.inl h.fresh

def idleChannel : Channel where
  select := 0
  low := 0
  mid := 0
  high := 0
  busy := 0
  phase := .idle

def noDisk : DiskInfo where
  controller := 0
  drive := 0
  sizeMb := 0
  model := []

def bootMachine (media : Fin 2 → Fin 2 → ℕ → Sector) (answers : ℕ → Answer)
    (identify : ℕ → Option IdentifyData) : Machine where
  bus :=
    { channel := fun _ => idleChannel
      media := media
      answers := answers
      issued := 0
      identify := identify
      scanned := 0 }
  printed := []
  poolBase := bootPool
  memory := memoryAllocatorInit bootPool fun _ => 0
  availableDisks := fun _ => noDisk
  currentDisk := -1
  numDisks := 0
  stackTail := ""
  trace := []
  stores := []
  frees := []

theorem bootMachine_booted (media : Fin 2 → Fin 2 → ℕ → Sector) (answers : ℕ → Answer)
    (identify : ℕ → Option IdentifyData) : (bootMachine media answers identify).Booted :=
  ⟨⟨_, rfl⟩, rfl, rfl⟩

/-- Blank disks on all four positions, all of them in order. -/
def blankMachine (identify : ℕ → Option IdentifyData) : Machine :=
  bootMachine (fun _ _ _ => blankSector) (fun _ => promptAnswer) identify

theorem blankMachine_booted (identify : ℕ → Option IdentifyData) :
    (blankMachine identify).Booted := bootMachine_booted _ _ _

/-- A drive of 131072 sectors, which is 64 MB. -/
def smallDrive : IdentifyData where
  busy := 0
  word := fun i => if i = 61 then 2 else 0

/-- A single drive, the primary master, answers every scan. -/
def primaryMaster : ℕ → Option IdentifyData := fun n => if n % 4 = 0 then some smallDrive else none

end EtyOS
