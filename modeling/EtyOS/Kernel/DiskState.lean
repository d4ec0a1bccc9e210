import EtyOS.Kernel.Machine

/-!
# The disks as an abstract sector store

The sector operations act on four maps from sector numbers to sectors, a
stream of answers and the record of what was done; nothing else of the machine
matters to them. `Machine.disk` is this part and `Machine.config` the rest that
the formatters leave alone. `writeAll` runs a list of writes up to the first
that fails, which is what a formatter does.
-/

namespace EtyOS

open Library

/-- The part of the machine that sector operations act on. -/
@[ext]
structure DiskState where
  media : Fin 2 → Fin 2 → ℕ → Sector
  answers : ℕ → Answer
  issued : ℕ
  trace : List Event

/-- The part of the machine that is none of the formatters' business. -/
@[ext]
structure Config where
  availableDisks : ℕ → DiskInfo
  currentDisk : ℤ
  numDisks : ℕ
  identify : ℕ → Option IdentifyData
  scanned : ℕ
  poolBase : PoolBase
  stackTail : String

def Machine.disk (s : Machine) : DiskState where
  media := s.bus.media
  answers := s.bus.answers
  issued := s.bus.issued
  trace := s.trace

def Machine.config (s : Machine) : Config where
  availableDisks := s.availableDisks
  currentDisk := s.currentDisk
  numDisks := s.numDisks
  identify := s.bus.identify
  scanned := s.bus.scanned
  poolBase := s.poolBase
  stackTail := s.stackTail

namespace DiskState

variable (k : DiskState) (c d : Fin 2) (lba : UInt32) (x : Sector)

def next : Answer := k.answers k.issued

def log (e : Event) : DiskState := { k with trace := k.trace ++ [e] }

def read : DiskState :=
  { k with issued := k.issued + 1, trace := k.trace ++ [.read c d lba (!k.next.abort)] }

/-- The words reach the medium unless the drive refuses the command, or fails
without keeping them. -/
def stores : Prop := k.next.abort = false ∧ (k.next.failed = false ∨ k.next.kept = true)

instance : Decidable k.stores := inferInstanceAs (Decidable (_ ∧ _))

def write : DiskState where
  media := if k.stores then
      Function.update k.media c
        (Function.update (k.media c) d (Function.update (k.media c d) (deviceLba lba) x))
    else k.media
  answers := k.answers
  issued := k.issued + 1
  trace := k.trace ++ [.write c d lba x (decide k.next.ok)]

/-- Write a list of sectors, up to the first failure. -/
def writeAll (k : DiskState) (c d : Fin 2) : List (UInt32 × Sector) → Bool × DiskState
  | [] => (true, k)
  | (lba, x) :: rest =>
    if k.next.ok then (k.write c d lba x).writeAll c d rest else (false, k.write c d lba x)

end DiskState

section Views

variable (s : Machine) (c d : Fin 2) (lba : UInt32) (x : Sector)

@[simp] theorem Machine.disk_next : s.disk.next = s.bus.next := rfl
@[simp] theorem Machine.disk_media : s.disk.media = s.bus.media := rfl

@[simp] theorem Machine.disk_print (calls : List PrintCall) : (s.print calls).disk = s.disk := rfl
@[simp] theorem Machine.disk_log (e : Event) : (s.log e).disk = s.disk.log e := rfl
@[simp] theorem Machine.disk_setMemory (m : Memory) : (s.setMemory m).disk = s.disk := rfl
@[simp] theorem Machine.disk_freed (ptr : ℕ) (m : Memory) : (s.freed ptr m).disk = s.disk := rfl
@[simp] theorem Machine.disk_bufferStore (l : List (ℕ × ℕ)) (m : Memory) :
    (s.bufferStore l m).disk = s.disk := rfl
@[simp] theorem Machine.disk_identify : (s.identify c d).disk = s.disk := rfl
@[simp] theorem Machine.disk_read : (s.read c d lba).disk = s.disk.read c d lba := rfl

@[simp] theorem Machine.disk_write : (s.write c d lba x).disk = s.disk.write c d lba x := by
  obtain ⟨hanswers, hissued, -, -⟩ := s.toPorts.afterWrite_rest c d lba x
  have hstores : s.disk.stores ↔ s.bus.next.abort = false ∧
      (s.bus.next.failed = false ∨ s.bus.next.kept = true) := Iff.rfl
  apply DiskState.ext
  · rw [DiskState.write, if_congr hstores rfl rfl]
    exact s.toPorts.afterWrite_media c d lba x
  · exact hanswers
  · exact hissued
  · rfl

@[simp] theorem Machine.config_print (calls : List PrintCall) :
    (s.print calls).config = s.config := rfl
@[simp] theorem Machine.config_log (e : Event) : (s.log e).config = s.config := rfl
@[simp] theorem Machine.config_setMemory (m : Memory) : (s.setMemory m).config = s.config := rfl
@[simp] theorem Machine.config_freed (ptr : ℕ) (m : Memory) :
    (s.freed ptr m).config = s.config := rfl
@[simp] theorem Machine.config_bufferStore (l : List (ℕ × ℕ)) (m : Memory) :
    (s.bufferStore l m).config = s.config := rfl
@[simp] theorem Machine.config_read : (s.read c d lba).config = s.config := rfl

@[simp] theorem Machine.config_write : (s.write c d lba x).config = s.config := by
  obtain ⟨-, -, hidentify, hscanned⟩ := s.toPorts.afterWrite_rest c d lba x
  apply Config.ext
  · rfl
  · rfl
  · rfl
  · exact hidentify
  · exact hscanned
  · rfl
  · rfl

@[simp] theorem Machine.memory_print (calls : List PrintCall) :
    (s.print calls).memory = s.memory := rfl
@[simp] theorem Machine.memory_log (e : Event) : (s.log e).memory = s.memory := rfl
@[simp] theorem Machine.memory_setMemory (m : Memory) : (s.setMemory m).memory = m := rfl
@[simp] theorem Machine.memory_freed (ptr : ℕ) (m : Memory) : (s.freed ptr m).memory = m := rfl
@[simp] theorem Machine.memory_bufferStore (l : List (ℕ × ℕ)) (m : Memory) :
    (s.bufferStore l m).memory = m := rfl
@[simp] theorem Machine.memory_identify : (s.identify c d).memory = s.memory := rfl
@[simp] theorem Machine.memory_read : (s.read c d lba).memory = s.memory := rfl
@[simp] theorem Machine.memory_write : (s.write c d lba x).memory = s.memory := rfl

@[simp] theorem Machine.stores_print (calls : List PrintCall) :
    (s.print calls).stores = s.stores := rfl
@[simp] theorem Machine.stores_setMemory (m : Memory) : (s.setMemory m).stores = s.stores := rfl
@[simp] theorem Machine.stores_freed (ptr : ℕ) (m : Memory) :
    (s.freed ptr m).stores = s.stores := rfl
@[simp] theorem Machine.stores_bufferStore (l : List (ℕ × ℕ)) (m : Memory) :
    (s.bufferStore l m).stores = s.stores ++ l := rfl
@[simp] theorem Machine.stores_read : (s.read c d lba).stores = s.stores := rfl
@[simp] theorem Machine.stores_write : (s.write c d lba x).stores = s.stores := rfl

@[simp] theorem Machine.poolBase_print (calls : List PrintCall) :
    (s.print calls).poolBase = s.poolBase := rfl
@[simp] theorem Machine.poolBase_setMemory (m : Memory) :
    (s.setMemory m).poolBase = s.poolBase := rfl

end Views

namespace DiskState

variable (k : DiskState) (c d : Fin 2) (lba : UInt32) (x : Sector)

@[simp] theorem read_media : (k.read c d lba).media = k.media := rfl
@[simp] theorem read_answers : (k.read c d lba).answers = k.answers := rfl
@[simp] theorem write_answers : (k.write c d lba x).answers = k.answers := rfl
@[simp] theorem write_issued : (k.write c d lba x).issued = k.issued + 1 := rfl
@[simp] theorem log_media (e : Event) : (k.log e).media = k.media := rfl
@[simp] theorem log_answers (e : Event) : (k.log e).answers = k.answers := rfl

/-- A drive that answers `ok` stores the sector. -/
theorem stores_of_ok (h : k.next.ok) : k.stores := ⟨h.1, Or.inl h.2⟩

/-- A write reaches one sector of one drive. -/
theorem write_media_of_ne {c' d' : Fin 2} {n : ℕ} (h : ¬(c' = c ∧ d' = d ∧ n = deviceLba lba)) :
    (k.write c d lba x).media c' d' n = k.media c' d' n := by
  unfold write
  dsimp only
  split
  · apply AtaBus.media_update_of_ne
    intro heq
    cases heq
    exact h ⟨rfl, rfl, rfl⟩
  · rfl

theorem write_media_same (h : k.stores) :
    (k.write c d lba x).media c d (deviceLba lba) = x := by
  simp [write, h]

variable {k c d}

@[simp] theorem writeAll_answers (plan : List (UInt32 × Sector)) :
    (k.writeAll c d plan).2.answers = k.answers := by
  induction plan generalizing k with
  | nil => rfl
  | cons w plan ih =>
    unfold writeAll
    split
    · rw [ih, write_answers]
    · rfl

theorem writeAll_append (plan plan' : List (UInt32 × Sector)) :
    k.writeAll c d (plan ++ plan') =
      if (k.writeAll c d plan).1 then (k.writeAll c d plan).2.writeAll c d plan'
      else k.writeAll c d plan := by
  induction plan generalizing k with
  | nil => rfl
  | cons w plan ih =>
    by_cases hok : k.next.ok
    · rw [List.cons_append, writeAll, writeAll, if_pos hok, if_pos hok, ih]
    · simp [writeAll, hok]

/-- A list of writes succeeds when the drive answers `ok` to each of them. -/
theorem writeAll_ok_iff (plan : List (UInt32 × Sector)) :
    (k.writeAll c d plan).1 = true ↔ ∀ i < plan.length, (k.answers (k.issued + i)).ok := by
  induction plan generalizing k with
  | nil => simp [writeAll]
  | cons w plan ih =>
    unfold writeAll
    by_cases hok : k.next.ok
    · rw [if_pos hok, ih]
      simp only [write_answers, write_issued, List.length_cons]
      constructor
      · intro h i hi
        cases i with
        | zero => exact hok
        | succ i =>
          have := h i (by omega)
          rwa [show k.issued + 1 + i = k.issued + (i + 1) by omega] at this
      · intro h i hi
        have := h (i + 1) (by omega)
        rwa [show k.issued + (i + 1) = k.issued + 1 + i by omega] at this
    · rw [if_neg hok]
      simp only [Bool.false_eq_true, List.length_cons, false_iff, not_forall]
      exact ⟨0, by omega, hok⟩

/-- Sectors that are not on the list keep their contents. -/
theorem writeAll_media_of_ne (plan : List (UInt32 × Sector)) {c' d' : Fin 2} {n : ℕ}
    (h : ∀ w ∈ plan, ¬(c' = c ∧ d' = d ∧ n = deviceLba w.1)) :
    (k.writeAll c d plan).2.media c' d' n = k.media c' d' n := by
  induction plan generalizing k with
  | nil => rfl
  | cons w plan ih =>
    have hhead := k.write_media_of_ne c d w.1 w.2 (h w (by simp))
    unfold writeAll
    split
    · rw [ih fun v hv => h v (by simp [hv]), hhead]
    · exact hhead

/-- The first sector of a list that has been written stays as written if no later one hits it. -/
theorem writeAll_media_head {w : UInt32 × Sector} {plan : List (UInt32 × Sector)}
    (hdone : (k.writeAll c d (w :: plan)).1 = true)
    (hkept : ∀ v ∈ plan, deviceLba v.1 ≠ deviceLba w.1) :
    (k.writeAll c d (w :: plan)).2.media c d (deviceLba w.1) = w.2 := by
  have hok : k.next.ok := (writeAll_ok_iff _).mp hdone 0 (by simp)
  unfold writeAll
  rw [if_pos hok, writeAll_media_of_ne plan fun v hv hhit => hkept v hv hhit.2.2.symm]
  exact k.write_media_same c d w.1 w.2 (stores_of_ok k hok)

end DiskState

end EtyOS
