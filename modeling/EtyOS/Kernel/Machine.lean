import EtyOS.Ata.DriverSpec
import EtyOS.Allocator.MemoryAllocator

/-!
# The kernel state

The static variables of the disk code, the memory pool, the ports with the
console output, and a record of the sector operations, formatter calls, buffer
stores and calls of `free` made so far. The record is read by no kernel
function. A kernel function is a state transformer that may fail to come back:
`none` is a walk of the allocator that goes round a cycle.
-/

namespace EtyOS

open Library

/-- `DiskInfo`; `model` holds the characters before the final NUL. -/
structure DiskInfo where
  controller : Fin 2
  drive : Fin 2
  sizeMb : UInt64
  model : List UInt8

inductive FileSystemType where
  | fat32
  | ext4
  deriving DecidableEq, Repr

/-- What the disk code did to the outside, in order. -/
inductive Event where
  | read (controller drive : Fin 2) (lba : UInt32) (ok : Bool)
  | write (controller drive : Fin 2) (lba : UInt32) (data : Sector) (ok : Bool)
  | format (fs : FileSystemType) (controller drive : Fin 2) (startLba totalSectors : UInt32)
      (result : ℤ)

structure Machine extends Ports where
  poolBase : PoolBase
  memory : Memory
  availableDisks : ℕ → DiskInfo
  currentDisk : ℤ
  numDisks : ℕ
  /-- What `print_str` finds on the stack behind an unterminated string. -/
  stackTail : String
  trace : List Event
  /-- Address and length of every store made through a disk buffer. -/
  stores : List (ℕ × ℕ)
  /-- The pointers passed to `free`. -/
  frees : List ℕ

/-- A kernel function. -/
abbrev Kernel := StateT Machine Option

namespace Machine

variable (s : Machine)

def print (calls : List PrintCall) : Machine := { s with printed := s.printed ++ calls }

def log (e : Event) : Machine := { s with trace := s.trace ++ [e] }

/-- The state after a sector has been read. -/
def read (c d : Fin 2) (lba : UInt32) : Machine :=
  { s with
    toPorts := s.toPorts.afterRead c d lba
    trace := s.trace ++ [.read c d lba (!s.bus.next.abort)] }

/-- The state after a sector has been written, or the drive has refused it. -/
def write (c d : Fin 2) (lba : UInt32) (x : Sector) : Machine :=
  { s with
    toPorts := s.toPorts.afterWrite c d lba x
    trace := s.trace ++ [.write c d lba x (decide s.bus.next.ok)] }

/-- The state after an IDENTIFY exchange. -/
def identify (c d : Fin 2) : Machine := { s with toPorts := s.toPorts.afterIdentify c d }

def setMemory (m : Memory) : Machine := { s with memory := m }

/-- The state after `ptr` has been freed, which leaves the memory `m`. -/
def freed (ptr : ℕ) (m : Memory) : Machine := { s with memory := m, frees := s.frees ++ [ptr] }

/-- Stores through the disk buffer that leave the memory `m`. -/
def bufferStore (stores : List (ℕ × ℕ)) (m : Memory) : Machine :=
  { s with memory := m, stores := s.stores ++ stores }

end Machine

section Primitives

/-- Calls of `print.c`. -/
def console (calls : List PrintCall) : Kernel Unit := modify fun s => s.print calls

def record (e : Event) : Kernel Unit := modify fun s => s.log e

/-- Run a port program with enough status reads for the next command. -/
def driver {α : Type} (prog : ℕ → PortProgram α) : Kernel α := fun s =>
  ((prog s.toPorts.patience).run s.toPorts).map fun r => (r.1, { s with toPorts := r.2 })

def ataReadSectorDisk (controller drive : Fin 2) (lba : UInt32) (buffer : ℕ) (m : Memory) :
    Kernel (ℤ × Memory) := do
  let r ← driver fun budget => Driver.ataReadSectorDisk budget controller drive lba buffer m
  record (.read controller drive lba (r.1 = 0))
  return r

def ataReadSector (lba : UInt32) (buffer : ℕ) (m : Memory) : Kernel (ℤ × Memory) := do
  let r ← driver fun budget => Driver.ataReadSector budget lba buffer m
  record (.read 0 0 lba (r.1 = 0))
  return r

def ataWriteSectorDisk (controller drive : Fin 2) (lba : UInt32) (buffer : ℕ) (m : Memory) :
    Kernel ℤ := do
  let r ← driver fun budget => Driver.ataWriteSectorDisk budget controller drive lba buffer m
  record (.write controller drive lba (Sector.ofMemory m buffer) (r = 0))
  return r

/-- A call of `allocate` on the pool. -/
def kernelAllocate (size : UInt64) : Kernel ℕ := fun s =>
  (allocate s.poolBase s.memory size).map fun r => (r.1, s.setMemory r.2)

/-- A call of `free` on the pool. -/
def kernelFree (ptr : ℕ) : Kernel Unit := fun s =>
  (free s.poolBase s.memory ptr).map fun m => ((), s.freed ptr m)

/-- Stores through the disk buffer, which lies in the pool. -/
def bufferWrite (a n : ℕ) (f : Memory → Memory) : Kernel Unit :=
  modify fun s => s.bufferStore [(a, n)] (f s.memory)

def bufferRead {α : Type} (f : Memory → α) : Kernel α := do
  let s ← get
  return f s.memory

end Primitives

section Runs

variable {α β : Type}

theorem run_bind_of_run {x : Kernel α} {s s' : Machine} {a : α} (f : α → Kernel β)
    (h : x.run s = some (a, s')) : (x >>= f).run s = (f a).run s' := by
  rw [StateT.run_bind, h]
  rfl

/-- A sequence that comes back does so through its first part. -/
theorem run_bind_eq_some {x : Kernel α} {f : α → Kernel β} {s s' : Machine} {b : β}
    (h : (x >>= f).run s = some (b, s')) :
    ∃ a s₁, x.run s = some (a, s₁) ∧ (f a).run s₁ = some (b, s') := by
  rw [StateT.run_bind] at h
  cases hx : x.run s with
  | none => simp [hx] at h
  | some r => exact ⟨r.1, r.2, rfl, by simpa [hx] using h⟩

@[simp] theorem run_console (calls : List PrintCall) (s : Machine) :
    (console calls).run s = some ((), s.print calls) := rfl

@[simp] theorem run_record (e : Event) (s : Machine) :
    (record e).run s = some ((), s.log e) := rfl

@[simp] theorem run_return (a : α) (s : Machine) :
    (pure a : Kernel α).run s = some (a, s) := rfl

@[simp] theorem run_modify (f : Machine → Machine) (s : Machine) :
    (modify f : Kernel Unit).run s = some ((), f s) := rfl

@[simp] theorem run_get (s : Machine) : (get : Kernel Machine).run s = some (s, s) := rfl

@[simp] theorem run_bufferWrite (a n : ℕ) (f : Memory → Memory) (s : Machine) :
    (bufferWrite a n f).run s = some ((), s.bufferStore [(a, n)] (f s.memory)) := rfl

@[simp] theorem run_bufferRead (f : Memory → α) (s : Machine) :
    (bufferRead f).run s = some (f s.memory, s) := rfl

theorem run_driver {prog : ℕ → PortProgram α} {s : Machine} {a : α} {p : Ports}
    (h : (prog s.toPorts.patience).run s.toPorts = some (a, p)) :
    (driver prog).run s = some (a, { s with toPorts := p }) := by
  change Option.map _ _ = _
  rw [h]
  rfl

/-- A read succeeds unless the drive aborts; it then leaves the buffer alone. -/
theorem run_readSector (c d : Fin 2) (lba : UInt32) (buffer : ℕ) (m : Memory) (s : Machine) :
    (ataReadSectorDisk c d lba buffer m).run s =
      if s.bus.next.abort then
        some ((-1, m), (s.read c d lba).print [.str "Error reading from disk."])
      else some ((0, (s.bus.media c d (deviceLba lba)).toMemory m buffer), s.read c d lba) := by
  have hbudget : s.bus.next.busy < s.toPorts.patience := by
    unfold Ports.patience
    omega
  have hrun := run_ataReadSectorDisk c d lba s.toPorts hbudget buffer m
  by_cases habort : s.bus.next.abort = true
  · rw [if_pos habort] at hrun ⊢
    rw [ataReadSectorDisk, run_bind_of_run _ (run_driver hrun), run_bind_of_run _ (run_record _ _)]
    simp [Machine.read, Machine.log, Machine.print, habort, PortDevice.say]
  · rw [if_neg habort] at hrun ⊢
    rw [ataReadSectorDisk, run_bind_of_run _ (run_driver hrun), run_bind_of_run _ (run_record _ _)]
    simp [Machine.read, Machine.log, habort]

theorem ataReadSector_eq_disk (lba : UInt32) (buffer : ℕ) (m : Memory) :
    ataReadSector lba buffer m = ataReadSectorDisk 0 0 lba buffer m := by
  have hdriver (budget : ℕ) : Driver.ataReadSector budget lba buffer m =
      Driver.ataReadSectorDisk budget 0 0 lba buffer m := ataReadSector_eq lba budget buffer m
  rw [ataReadSector, funext hdriver]
  rfl

/-- The message of a failing write. -/
def writeMessage (a : Answer) : List PrintCall :=
  if a.abort then [.str "Error: Disk reported an error before writing."]
  else if a.failed then [.str "Error: Disk reported an error after writing."]
  else []

/-- A write succeeds exactly when the drive answers `ok`. -/
theorem run_writeSector (c d : Fin 2) (lba : UInt32) (buffer : ℕ) (m : Memory) (s : Machine) :
    (ataWriteSectorDisk c d lba buffer m).run s =
      some (if s.bus.next.ok then 0 else -1,
        (s.write c d lba (Sector.ofMemory m buffer)).print (writeMessage s.bus.next)) := by
  have hbudget : s.bus.next.busy < s.toPorts.patience := by
    unfold Ports.patience
    omega
  have hafter : s.bus.next.busyAfter < s.toPorts.patience := by
    unfold Ports.patience
    omega
  have hrun := run_ataWriteSectorDisk c d lba s.toPorts hbudget hafter buffer m
  by_cases habort : s.bus.next.abort = true
  · simp only [habort, if_true] at hrun
    rw [ataWriteSectorDisk, run_bind_of_run _ (run_driver hrun),
      run_bind_of_run _ (run_record _ _)]
    simp [Machine.write, Machine.log, Machine.print, habort, PortDevice.say, Answer.ok,
      writeMessage]
  · by_cases hfailed : s.bus.next.failed = true
    · simp only [habort, hfailed, if_true, Bool.false_eq_true, if_false] at hrun
      rw [ataWriteSectorDisk, run_bind_of_run _ (run_driver hrun),
        run_bind_of_run _ (run_record _ _)]
      simp [Machine.write, Machine.log, Machine.print, habort, hfailed, PortDevice.say,
        Answer.ok, writeMessage]
    · simp only [habort, hfailed, Bool.false_eq_true, if_false] at hrun
      rw [ataWriteSectorDisk, run_bind_of_run _ (run_driver hrun),
        run_bind_of_run _ (run_record _ _)]
      simp [Machine.write, Machine.log, Machine.print, habort, hfailed, Answer.ok, writeMessage]

end Runs

end EtyOS
