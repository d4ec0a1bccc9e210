import EtyOS.Library.Recording
import EtyOS.Disktool.DisktoolSpec
import EtyOS.Partition.MbrTable

/-!
# The commands that index the partition table

`format_partition`, `select_partition` and `delete_partition` copy sector 0 into
a local array and read one entry of it. The array is modelled with what lies
around it on the stack, and the offsets of all reads are recorded, because
`format_partition` does not check the index.
-/

namespace EtyOS

open Library

/-- The bytes of a local array and those around it, by their offset from its start. -/
abbrev LocalArray := ℤ → UInt8

namespace LocalArray

/-- The 512 bytes of a sector in an array; around them is `frame`. -/
def ofMemory (m : Memory) (frame : LocalArray) : LocalArray := fun a =>
  if 0 ≤ a ∧ a < 512 then m a.toNat else frame a

/-- The little-endian word of `n` bytes at offset `a`. -/
def word (array : LocalArray) (a : ℤ) : ℕ → ℕ
  | 0 => 0
  | n + 1 => (array a).toNat + 256 * word array (a + 1) n

/-- The offset of `partition_table[i].f`. -/
def offset (i : ℤ) (f : PartitionField) : ℤ := 446 + 16 * i + partitionEntry.offset f

/-- `partition_table[i].f`, for any index. -/
def field (array : LocalArray) (i : ℤ) (f : PartitionField) : ℕ :=
  array.word (offset i f) (partitionEntry.size f)

/-- The offsets of `n` bytes. -/
def span (a : ℤ) : ℕ → List ℤ
  | 0 => []
  | n + 1 => a :: span (a + 1) n

/-- The offsets that a read of the field looks at. -/
def fieldSpan (i : ℤ) (f : PartitionField) : List ℤ := span (offset i f) (partitionEntry.size f)

end LocalArray

/-- Kernel functions with a record of the offsets at which they read their array. -/
abbrev Reading := Recording ℤ Kernel

namespace Reading

def readByte (array : LocalArray) (a : ℤ) : Reading UInt8 := do
  note a
  return array a

def readWord (array : LocalArray) (a : ℤ) : ℕ → Reading ℕ
  | 0 => return 0
  | n + 1 => do
    let low ← readByte array a
    let high ← readWord array (a + 1) n
    return low.toNat + 256 * high

def readField (array : LocalArray) (i : ℤ) (f : PartitionField) : Reading ℕ :=
  readWord array (LocalArray.offset i f) (partitionEntry.size f)

end Reading

/-- The formatter of `fs_type`, with the record of its result. -/
def formatByType (fsType : FileSystemType) (disk : DiskInfo) (lbaFirst sectorCount : UInt32) :
    Kernel ℤ := do
  let rc ← match fsType with
    | .fat32 => formatFat32 disk.controller disk.drive lbaFirst sectorCount
    | .ext4 => formatExt4 disk.controller disk.drive lbaFirst sectorCount
  record (.format fsType disk.controller disk.drive lbaFirst sectorCount rc)
  return rc

/-- `format_partition` once a disk is selected: the type is read before any check
of the index. -/
def formatEntry (frame : LocalArray) (disk : DiskInfo) (partitionIndex : ℤ)
    (fsType : FileSystemType) : Reading ℤ := do
  let (rc, mbr) ← ataReadSectorDisk disk.controller disk.drive 0 0 uninitialised
  if rc ≠ 0 then
    console [.str "Error reading MBR", .newline]
    return -1
  else
    let type ← Reading.readField (.ofMemory mbr frame) partitionIndex .type
    if type = 0 then
      console [.str "Partition does not exist", .newline]
      return -1
    else
      let lbaFirst ← Reading.readField (.ofMemory mbr frame) partitionIndex .lbaFirst
      let sectorCount ← Reading.readField (.ofMemory mbr frame) partitionIndex .sectorCount
      formatByType fsType disk (UInt32.ofNat lbaFirst) (UInt32.ofNat sectorCount)

def formatPartition (frame : LocalArray) (partitionIndex : ℤ) (fsType : FileSystemType) :
    Reading ℤ := do
  let s ← (get : Kernel Machine)
  if s.currentDisk = -1 then
    console [.str "No disk selected", .newline]
    return -1
  else formatEntry frame s.selected partitionIndex fsType

/-- The `||` of the check reads the table only for an index in range. -/
def selectPartition (frame : LocalArray) (partitionNumber : ℤ) : Reading Unit := do
  let (rc, mbr) ← ataReadSector 0 0 uninitialised
  if rc ≠ 0 then
    console [.str "Error: Unable to read MBR."]
  else if partitionNumber < 0 ∨ partitionNumber ≥ 4 then
    console [.str "Invalid or empty partition."]
  else
    let type ← Reading.readField (.ofMemory mbr frame) partitionNumber .type
    if type = 0 then
      console [.str "Invalid or empty partition."]
    else
      console [.str "Selected partition: ", .int (UInt32.ofNat partitionNumber.toNat), .newline]

namespace Reading

/-- `partition_table[i].type`, with a record of the byte. -/
def readType (frame : LocalArray) (mbr : Memory) (i : ℤ) : Reading UInt8 := do
  let type ← readField (.ofMemory mbr frame) i .type
  return UInt8.ofNat type

def deletePartition (frame : LocalArray) (partitionIndex : ℤ) : Reading ℤ :=
  deletePartitionWith (readType frame) partitionIndex

end Reading

section Fields

variable (array : LocalArray) (m : Memory) (frame : LocalArray) {i : ℤ}

/-- A read yields the word and records its bytes. -/
theorem readWord_run (a : ℤ) (n : ℕ) (l : List ℤ) :
    (Reading.readWord array a n).run l = pure (array.word a n, l ++ LocalArray.span a n) := by
  induction n generalizing a l with
  | zero => simp [Reading.readWord, LocalArray.word, LocalArray.span]
  | succ n ih =>
    simp [Reading.readWord, Reading.readByte, StateT.run_bind, ih, LocalArray.word,
      LocalArray.span]

theorem readField_run (i : ℤ) (f : PartitionField) (l : List ℤ) :
    (Reading.readField array i f).run l =
      pure (array.field i f, l ++ LocalArray.fieldSpan i f) := readWord_run _ _ _ _

theorem LocalArray.mem_span {a o : ℤ} {n : ℕ} : o ∈ span a n ↔ a ≤ o ∧ o < a + n := by
  induction n generalizing a with
  | zero =>
    simp only [span, List.not_mem_nil, false_iff]
    omega
  | succ n ih =>
    simp only [span, List.mem_cons, ih]
    omega

/-- Inside the array a word is the word of the memory. -/
theorem LocalArray.word_ofMemory {a : ℤ} {n : ℕ} (ha : 0 ≤ a) (hend : a + n ≤ 512) :
    (ofMemory m frame).word a n = m.load a.toNat n := by
  induction n generalizing a with
  | zero => rfl
  | succ n ih =>
    have hbyte : ofMemory m frame a = m a.toNat := if_pos ⟨ha, by omega⟩
    have hnext : (a + 1).toNat = a.toNat + 1 := by omega
    rw [word, Memory.load, hbyte, ih (by omega) (by omega), hnext]

/-- The fields of the four entries are those of the sector. -/
theorem LocalArray.field_ofMemory (hi : 0 ≤ i) (hlt : i < 4) (f : PartitionField) :
    (ofMemory m frame).field i f = partitionEntry.get m (entryAt i.toNat) f := by
  have hsize := partitionEntry.offset_add_size_le f
  have haddr : (offset i f).toNat = entryAt i.toNat + partitionEntry.offset f := by
    unfold offset entryAt partitionTableOffset
    omega
  rw [sizeof_partitionEntry] at hsize
  rw [field, word_ofMemory, haddr]
  · rfl
  · unfold offset
    omega
  · unfold offset
    omega

end Fields

section Deletion

/-- For an index that has been checked, the read with a record yields the same byte. -/
theorem readType_erases (frame : LocalArray) (mbr : Memory) {i : ℤ} (hi : 0 ≤ i) (hlt : i < 4) :
    Erases (Reading.readType frame mbr i) (entryType mbr i) := by
  intro l
  rw [Reading.readType, StateT.run_bind, readField_run, pure_bind,
    LocalArray.field_ofMemory mbr frame hi hlt]
  rfl

theorem deletePartition_erases (frame : LocalArray) (i : ℤ) :
    Erases (Reading.deletePartition frame i) (deletePartition i) := by
  apply Erases.lift_bind
  intro s
  apply Erases.ite
  · intro _
    exact Erases.lift_bind _ fun _ => Erases.pure (-1)
  · intro _
    apply Erases.ite
    · intro _
      exact Erases.lift_bind _ fun _ => Erases.pure (-1)
    · intro hindex
      apply Erases.lift_bind
      intro r
      apply Erases.ite
      · intro _
        exact Erases.lift_bind _ fun _ => Erases.pure (-1)
      · intro _
        apply Erases.bind (readType_erases frame r.2 (by omega) (by omega))
        intro type
        apply Erases.ite
        · intro _
          exact Erases.lift_bind _ fun _ => Erases.pure (-1)
        · intro _
          apply Erases.lift_bind
          intro rc
          apply Erases.ite
          · intro _
            exact Erases.lift_bind _ fun _ => Erases.pure (-1)
          · intro _
            exact Erases.lift_bind _ fun _ => Erases.pure 0

end Deletion

/-- `format_partition` once a disk is selected, as an operation on the disks; the
result comes with the offsets read. -/
def DiskState.formatEntry (fs : FileSystemType) (c d : Fin 2) (frame : LocalArray) (i : ℤ)
    (k : DiskState) : (ℤ × List ℤ) × DiskState :=
  let array := LocalArray.ofMemory (k.media c d 0).mbr frame
  let lbaFirst := UInt32.ofNat (array.field i .lbaFirst)
  let sectorCount := UInt32.ofNat (array.field i .sectorCount)
  if k.next.abort then ((-1, []), k.read c d 0)
  else if array.field i .type = 0 then
    ((-1, LocalArray.fieldSpan i .type), k.read c d 0)
  else
    ((((k.read c d 0).formatter fs c d lbaFirst sectorCount).1,
      LocalArray.fieldSpan i .type ++ LocalArray.fieldSpan i .lbaFirst ++
        LocalArray.fieldSpan i .sectorCount),
      (k.read c d 0).format fs c d lbaFirst sectorCount)

def System.formatPartition (t : System) (fs : FileSystemType) (frame : LocalArray) (i : ℤ) :
    (ℤ × List ℤ) × System :=
  if t.config.currentDisk = -1 then ((-1, []), t)
  else t.onDisk (DiskState.formatEntry fs t.selected.controller t.selected.drive frame i)

section Format

variable (fs : FileSystemType) (frame : LocalArray) (i : ℤ)

theorem formatByType_does (disk : DiskInfo) (lbaFirst sectorCount : UInt32) :
    Does (formatByType fs disk lbaFirst sectorCount) (System.onDisk fun k =>
      ((k.formatter fs disk.controller disk.drive lbaFirst sectorCount).1,
        k.format fs disk.controller disk.drive lbaFirst sectorCount)) := by
  have hreport : ∀ rc : ℤ, Does (do
      record (.format fs disk.controller disk.drive lbaFirst sectorCount rc)
      return rc) (System.onDisk fun k =>
        (rc, k.log (.format fs disk.controller disk.drive lbaFirst sectorCount rc))) :=
    fun rc => Simulates.bind (record_does _) fun _ => Simulates.pure rc
  cases fs with
  | fat32 => exact Simulates.bind (formatFat32_does _ _ _ _) hreport
  | ext4 => exact Simulates.bind (formatExt4_does _ _ _ _) hreport

variable {c d : Fin 2} {k : DiskState}

theorem DiskState.formatEntry_unread (hread : k.next.abort = true) :
    k.formatEntry fs c d frame i = ((-1, []), k.read c d 0) := by
  simp [formatEntry, hread]

theorem DiskState.formatEntry_empty (hread : k.next.abort = false)
    (htype : (LocalArray.ofMemory (k.media c d 0).mbr frame).field i .type = 0) :
    k.formatEntry fs c d frame i = ((-1, LocalArray.fieldSpan i .type), k.read c d 0) := by
  simp [formatEntry, hread, htype]

/-- Whatever the index, a type that is not zero is enough for the formatter to run. -/
theorem DiskState.formatEntry_used (hread : k.next.abort = false)
    (htype : (LocalArray.ofMemory (k.media c d 0).mbr frame).field i .type ≠ 0) :
    k.formatEntry fs c d frame i =
      ((((k.read c d 0).formatter fs c d
          (UInt32.ofNat ((LocalArray.ofMemory (k.media c d 0).mbr frame).field i .lbaFirst))
          (UInt32.ofNat ((LocalArray.ofMemory (k.media c d 0).mbr frame).field i
            .sectorCount))).1,
        LocalArray.fieldSpan i .type ++ LocalArray.fieldSpan i .lbaFirst ++
          LocalArray.fieldSpan i .sectorCount),
        (k.read c d 0).format fs c d
          (UInt32.ofNat ((LocalArray.ofMemory (k.media c d 0).mbr frame).field i .lbaFirst))
          (UInt32.ofNat ((LocalArray.ofMemory (k.media c d 0).mbr frame).field i
            .sectorCount))) := by
  simp [formatEntry, hread, htype]

theorem formatEntry_does (disk : DiskInfo) :
    Does ((formatEntry frame disk i fs).run [])
      (System.onDisk (DiskState.formatEntry fs disk.controller disk.drive frame i)) := by
  intro s hs
  have hread := run_readSector disk.controller disk.drive 0 0 uninitialised s
  rw [SimulatesAt, formatEntry, System.onDisk]
  cases habort : s.disk.next.abort with
  | true =>
    rw [← Machine.disk_next, habort, if_pos rfl] at hread
    rw [Machine.system, DiskState.formatEntry_unread fs frame i habort, run_lift_bind hread]
    dsimp only
    rw [if_pos (by omega), run_lift_bind (run_console _ _)]
    exact ⟨_, rfl, rfl, hs⟩
  | false =>
    rw [← Machine.disk_next, habort, if_neg (by simp)] at hread
    change _ = some ((0, (s.disk.media disk.controller disk.drive 0).mbr), _) at hread
    rw [run_lift_bind hread]
    dsimp only
    rw [if_neg (by simp), StateT.run_bind, readField_run, pure_bind]
    by_cases htype : (LocalArray.ofMemory (s.disk.media disk.controller disk.drive 0).mbr
        frame).field i .type = 0
    · rw [Machine.system, DiskState.formatEntry_empty fs frame i habort htype, if_pos htype,
        run_lift_bind (run_console _ _)]
      exact ⟨_, rfl, rfl, hs⟩
    · rw [Machine.system, DiskState.formatEntry_used fs frame i habort htype, if_neg htype,
        StateT.run_bind, readField_run, pure_bind, StateT.run_bind, readField_run, pure_bind,
        run_lift, List.nil_append]
      obtain ⟨s', hrun, hsystem, hready⟩ := formatByType_does fs disk
        (UInt32.ofNat ((LocalArray.ofMemory (s.disk.media disk.controller disk.drive 0).mbr
          frame).field i .lbaFirst))
        (UInt32.ofNat ((LocalArray.ofMemory (s.disk.media disk.controller disk.drive 0).mbr
          frame).field i .sectorCount)) (s.read disk.controller disk.drive 0) hs
      refine ⟨s', ?_, hsystem, hready⟩
      rw [StateT.run_map, hrun]
      rfl

theorem formatPartition_does :
    Does ((formatPartition frame i fs).run []) fun t => t.formatPartition fs frame i := by
  intro s hs
  rw [SimulatesAt, formatPartition, run_lift_bind (run_get s)]
  by_cases hcurrent : s.currentDisk = -1
  · rw [if_pos hcurrent, run_lift_bind (run_console _ _), System.formatPartition]
    have hcurrent' : s.system.config.currentDisk = -1 := hcurrent
    rw [if_pos hcurrent']
    exact ⟨_, rfl, rfl, hs⟩
  · have hcurrent' : ¬s.system.config.currentDisk = -1 := hcurrent
    rw [if_neg hcurrent, System.formatPartition, if_neg hcurrent']
    exact formatEntry_does fs frame i s.selected s hs

/-- With a disk selected the call comes back with what the disks say. -/
theorem run_formatPartition {s : Machine} (hs : s.Ready) (hcurrent : s.currentDisk ≠ -1) :
    ∃ s', ((formatPartition frame i fs).run []).run s =
        some ((s.disk.formatEntry fs s.selected.controller s.selected.drive frame i).1, s') ∧
      s'.disk = (s.disk.formatEntry fs s.selected.controller s.selected.drive frame i).2 := by
  obtain ⟨s', hrun, hsystem, -⟩ := formatPartition_does fs frame i s hs
  have hselected : s.system.formatPartition fs frame i = s.system.onDisk
      (DiskState.formatEntry fs s.selected.controller s.selected.drive frame i) := if_neg hcurrent
  dsimp only at hrun hsystem
  rw [hselected] at hrun hsystem
  exact ⟨s', hrun, congrArg System.disk hsystem⟩

end Format

end EtyOS
