import EtyOS.Disktool.TableAccess
import EtyOS.Disktool.Listing

/-!
# Which indices the partition commands accept

`delete_partition` and `select_partition` check the index before they read the
table; `format_partition` reads the type first and has no other check. An index
outside the table is a read of other bytes of the sector, or of the stack.
-/

namespace EtyOS

open Library

/-- Entry `i` is one of the four, and not empty. -/
def Sector.InUse (x : Sector) (i : ℤ) : Prop := 0 ≤ i ∧ i < 4 ∧ x.slotType i.toNat ≠ 0

namespace Machine

variable (s s' : Machine)

/-- A deletion gets as far as writing the MBR back. -/
def Deletes : Prop :=
  ∃ x ok, Event.write s.selected.controller s.selected.drive 0 x ok ∈ s.newEvents s'

/-- The formatter has been called. -/
def Formats : Prop :=
  ∃ fs n count rc,
    Event.format fs s.selected.controller s.selected.drive n count rc ∈ s.newEvents s'

/-- The selection is announced. -/
def Announces : Prop := .str "Selected partition: " ∈ s.newOutput s'

end Machine

/-- The command comes back; it proceeds exactly when entry `i` of the sector is in
use, and reads nothing but the 512 bytes of its array. -/
def ChecksIndex {α : Type} (command : Reading α) (s : Machine) (proceeds : Machine → Prop)
    (x : Sector) (i : ℤ) : Prop :=
  ∃ a reads s', (command.run []).run s = some ((a, reads), s') ∧ (proceeds s' ↔ x.InUse i) ∧
    ∀ o ∈ reads, 0 ≤ o ∧ o < 512

section Reads

variable {array : LocalArray} {i : ℤ}

/-- The fields of the four entries lie in the array. -/
theorem fieldSpan_inside (hi : 0 ≤ i) (hlt : i < 4) {f : PartitionField} {o : ℤ}
    (ho : o ∈ LocalArray.fieldSpan i f) : 0 ≤ o ∧ o < 512 := by
  have hsize := partitionEntry.offset_add_size_le f
  obtain ⟨hlow, hhigh⟩ := LocalArray.mem_span.mp ho
  rw [sizeof_partitionEntry] at hsize
  unfold LocalArray.offset at hlow hhigh
  omega

theorem readField_records (hi : 0 ≤ i) (hlt : i < 4) (f : PartitionField) :
    Records (fun o => 0 ≤ o ∧ o < 512) (Reading.readField array i f) := by
  intro l s r s' hrun
  rw [readField_run] at hrun
  obtain ⟨rfl, -⟩ := Prod.mk.inj (Option.some.inj hrun)
  exact ⟨_, rfl, fun o => fieldSpan_inside hi hlt⟩

/-- The type of an entry is the byte at its offset. -/
theorem fieldSpan_type (i : ℤ) : LocalArray.fieldSpan i .type = [450 + 16 * i] := by
  have hsize : partitionEntry.size .type = 1 := by decide
  have hoffset : LocalArray.offset i .type = 450 + 16 * i := by
    change 446 + 16 * i + 4 = _
    omega
  rw [LocalArray.fieldSpan, hsize, hoffset]
  rfl

theorem field_type (array : LocalArray) (i : ℤ) :
    array.field i .type = (array (450 + 16 * i)).toNat := by
  have hsize : partitionEntry.size .type = 1 := by decide
  have hoffset : LocalArray.offset i .type = 450 + 16 * i := by
    change 446 + 16 * i + 4 = _
    omega
  rw [LocalArray.field, hsize, hoffset, LocalArray.word, LocalArray.word]
  omega

theorem deletePartition_records (frame : LocalArray) (i : ℤ) :
    Records (fun o => 0 ≤ o ∧ o < 512) (Reading.deletePartition frame i) := by
  have hreport : ∀ (calls : List PrintCall) (rc : ℤ), Records (fun o : ℤ => 0 ≤ o ∧ o < 512)
      (do console calls; return rc : Reading ℤ) :=
    fun calls rc => Records.bind (Records.lift _) fun _ => Records.pure rc
  apply Records.bind (Records.lift _)
  intro s
  apply Records.ite
  · intro _
    exact hreport _ _
  · intro _
    apply Records.ite
    · intro _
      exact hreport _ _
    · intro hindex
      apply Records.bind (Records.lift _)
      intro r
      apply Records.ite
      · intro _
        exact hreport _ _
      · intro _
        apply Records.bind (Records.bind (readField_records (by omega) (by omega) .type)
          fun type => Records.pure (UInt8.ofNat type))
        intro type
        apply Records.ite
        · intro _
          exact hreport _ _
        · intro _
          apply Records.bind (Records.lift _)
          intro rc
          exact Records.ite (fun _ => hreport _ _) fun _ => hreport _ _

end Reads

section Commands

variable {s : Machine} (frame : LocalArray) (i : ℤ)

theorem deletePartition_checks (hs : s.Ready) (hcurrent : s.currentDisk ≠ -1)
    (hread : s.bus.next.abort = false) :
    ChecksIndex (Reading.deletePartition frame i) s s.Deletes s.selectedMbr i := by
  obtain ⟨s', hrun, hsystem, -⟩ := deletePartition_does i s hs
  obtain ⟨reads, hreads⟩ := (deletePartition_erases frame i).exists_run hrun
  obtain ⟨l, hl, hinside⟩ := deletePartition_records frame i [] s _ s' hreads
  obtain rfl : reads = l := hl
  refine ⟨_, reads, s', hreads, ?_, hinside⟩
  by_cases hindex : i < 0 ∨ i ≥ 4
  · have hnone : s.system.deletion (.deletePartition i) = none := if_pos (Or.inr hindex)
    have hkept : s'.system = s.system :=
      hsystem.trans (congrArg Prod.snd (System.deletePartition_rejected hnone))
    have htrace : s'.disk.trace = s.disk.trace ++ [] := by
      rw [List.append_nil]
      exact congrArg (fun t : System => t.disk.trace) hkept
    refine iff_of_false ?_ ?_
    · rintro ⟨x, ok, hmem⟩
      simp [Machine.newEvents_of_append htrace] at hmem
    · rintro ⟨hlow, hhigh, -⟩
      omega
  · obtain ⟨j, rfl⟩ := Int.eq_ofNat_of_zero_le (a := i) (by omega)
    have hwrites := deletePartition_writes_iff hs hcurrent (i := j) (by omega) hrun
    rw [Machine.Deletes, hwrites, Sector.InUse, Int.toNat_natCast]
    constructor
    · rintro ⟨-, htype⟩
      exact ⟨by omega, by omega, htype⟩
    · rintro ⟨-, -, htype⟩
      exact ⟨hread, htype⟩

/-- With a readable sector 0, `select_partition` reads it from the primary master. -/
theorem run_selectPartition (hread : s.bus.next.abort = false) :
    ((selectPartition frame i).run []).run s =
      ((if i < 0 ∨ i ≥ 4 then (console [.str "Invalid or empty partition."] : Reading Unit)
        else do
          let type ← Reading.readField (.ofMemory (s.bus.media 0 0 0).mbr frame) i .type
          if type = 0 then console [.str "Invalid or empty partition."]
          else console [.str "Selected partition: ", .int (UInt32.ofNat i.toNat), .newline]).run
        []).run (s.read 0 0 0) := by
  have hsector := run_readSector 0 0 0 0 uninitialised s
  rw [hread, if_neg (by simp), ← ataReadSector_eq_disk] at hsector
  rw [selectPartition, run_lift_bind hsector]
  rfl

theorem selectPartition_checks (hread : s.bus.next.abort = false) :
    ChecksIndex (selectPartition frame i) s s.Announces (s.bus.media 0 0 0) i := by
  have hprinted : ∀ calls, s.newOutput ((s.read 0 0 0).print calls) = calls := by
    intro calls
    exact List.drop_left
  have hquiet : ¬s.Announces ((s.read 0 0 0).print [.str "Invalid or empty partition."]) := by
    simp [Machine.Announces, hprinted]
  rw [ChecksIndex, run_selectPartition frame i hread]
  by_cases hindex : i < 0 ∨ i ≥ 4
  · rw [if_pos hindex]
    refine ⟨(), [], _, rfl, iff_of_false hquiet ?_, by simp⟩
    rintro ⟨hlow, hhigh, -⟩
    omega
  · have hi : 0 ≤ i := by omega
    have hlt : i < 4 := by omega
    have hinside : ∀ o ∈ [] ++ LocalArray.fieldSpan i .type, 0 ≤ o ∧ o < 512 :=
      fun o ho => fieldSpan_inside hi hlt ho
    rw [if_neg hindex, StateT.run_bind, readField_run, pure_bind,
      LocalArray.field_ofMemory _ frame hi hlt]
    have htype := type_eq_zero_iff (s.bus.media 0 0 0).mbr (entryAt i.toNat)
    by_cases hzero : partitionEntry.get (s.bus.media 0 0 0).mbr (entryAt i.toNat) .type = 0
    · rw [if_pos hzero]
      refine ⟨(), _, _, rfl, iff_of_false hquiet ?_, hinside⟩
      rintro ⟨-, -, hused⟩
      exact hused (htype.mpr hzero)
    · rw [if_neg hzero]
      refine ⟨(), _, _, rfl, iff_of_true ?_ ⟨hi, hlt, fun h => hzero (htype.mp h)⟩, hinside⟩
      simp [Machine.Announces, hprinted]

end Commands

/-- A formatter only adds to the record. -/
theorem DiskState.formatter_trace_append (fs : FileSystemType) (c d : Fin 2)
    (startLba count : UInt32) (k : DiskState) :
    ∃ evs, (k.formatter fs c d startLba count).2.trace = k.trace ++ evs := by
  cases fs with
  | fat32 =>
    obtain ⟨evs, htrace, -⟩ := writeAll_events c d k (fat32Plan startLba count)
    exact ⟨evs, htrace⟩
  | ext4 =>
    obtain ⟨evs, htrace, -⟩ := k.formatExt4_events c d startLba count
    exact ⟨evs, htrace⟩

/-- A call that gets to its formatter leaves the result in the record. -/
theorem DiskState.formatEntry_used_trace (fs : FileSystemType) {c d : Fin 2}
    (frame : LocalArray) (i : ℤ) {k : DiskState} (hread : k.next.abort = false)
    (htype : (LocalArray.ofMemory (k.media c d 0).mbr frame).field i .type ≠ 0) :
    ∃ evs n count rc, (k.formatEntry fs c d frame i).2.trace =
      k.trace ++ (evs ++ [.format fs c d n count rc]) := by
  rw [formatEntry_used fs frame i hread htype]
  generalize UInt32.ofNat ((LocalArray.ofMemory (k.media c d 0).mbr frame).field i .lbaFirst) = n
  generalize UInt32.ofNat ((LocalArray.ofMemory (k.media c d 0).mbr frame).field i
    .sectorCount) = count
  obtain ⟨evs, htrace⟩ := formatter_trace_append fs c d n count (k.read c d 0)
  refine ⟨.read c d 0 true :: evs, n, count,
    (formatter fs c d n count (k.read c d 0)).1, ?_⟩
  dsimp only
  rw [format, log, htrace, read, hread]
  simp

/-- The index is in the table, or the byte read as its type lies in the sector,
before the table, and is 0. -/
def IndexTolerated (x : Sector) (i : ℤ) : Prop :=
  (0 ≤ i ∧ i < 4) ∨ (-28 ≤ i ∧ i < 0 ∧ x.mbr (450 + 16 * i).toNat = 0)

section Format

variable {s : Machine} (fs : FileSystemType) (frame : LocalArray) (i : ℤ)

/-- The byte that `format_partition` takes for the type. -/
def Machine.typeByte (s : Machine) (frame : LocalArray) (i : ℤ) : UInt8 :=
  LocalArray.ofMemory s.selectedMbr.mbr frame (450 + 16 * i)

theorem field_type_eq_zero_iff :
    (LocalArray.ofMemory s.selectedMbr.mbr frame).field i .type = 0 ↔ s.typeByte frame i = 0 := by
  rw [field_type, Machine.typeByte, ← UInt8.toNat_inj]
  rfl

/-- With a readable sector 0 the byte alone decides whether the formatter is called. -/
theorem formatPartition_outcome (hs : s.Ready) (hcurrent : s.currentDisk ≠ -1)
    (hread : s.bus.next.abort = false) :
    ∃ rc reads s', ((formatPartition frame i fs).run []).run s = some ((rc, reads), s') ∧
      (s.Formats s' ↔ s.typeByte frame i ≠ 0) ∧ 450 + 16 * i ∈ reads ∧
      (s.typeByte frame i = 0 → reads = [450 + 16 * i]) ∧
      (0 ≤ i ∧ i < 4 → ∀ o ∈ reads, 0 ≤ o ∧ o < 512) := by
  obtain ⟨s', hrun, hdisk⟩ := run_formatPartition fs frame i hs hcurrent
  have hread' : s.disk.next.abort = false := hread
  by_cases hzero : s.typeByte frame i = 0
  · have htype := (field_type_eq_zero_iff frame i).mpr hzero
    rw [DiskState.formatEntry_empty fs frame i hread' htype, fieldSpan_type] at hrun
    rw [DiskState.formatEntry_empty fs frame i hread' htype] at hdisk
    have htrace : s'.disk.trace = s.disk.trace ++
        [.read s.selected.controller s.selected.drive 0 true] := by
      rw [hdisk, DiskState.read, hread']
      rfl
    refine ⟨_, _, s', hrun, iff_of_false ?_ (by simp [hzero]), by simp, fun _ => rfl, ?_⟩
    · rintro ⟨fs', n, count, rc, hmem⟩
      simp [Machine.newEvents_of_append htrace] at hmem
    · rintro ⟨hi, hlt⟩ o ho
      rw [← fieldSpan_type] at ho
      exact fieldSpan_inside hi hlt ho
  · have htype : (LocalArray.ofMemory s.selectedMbr.mbr frame).field i .type ≠ 0 :=
      fun h => hzero ((field_type_eq_zero_iff frame i).mp h)
    rw [DiskState.formatEntry_used fs frame i hread' htype] at hrun hdisk
    refine ⟨_, _, s', hrun, iff_of_true ?_ hzero, ?_, fun h => absurd h hzero, ?_⟩
    · obtain ⟨evs, n, count, rc, htrace⟩ :=
        DiskState.formatEntry_used_trace fs frame i hread' htype
      rw [DiskState.formatEntry_used fs frame i hread' htype, ← hdisk] at htrace
      refine ⟨fs, n, count, rc, ?_⟩
      rw [Machine.newEvents_of_append htrace]
      simp
    · simp [fieldSpan_type]
    · rintro ⟨hi, hlt⟩ o ho
      simp only [List.mem_append] at ho
      rcases ho with (ho | ho) | ho
      · exact fieldSpan_inside hi hlt ho
      · exact fieldSpan_inside hi hlt ho
      · exact fieldSpan_inside hi hlt ho

theorem formatPartition_checks_iff (hs : s.Ready) (hcurrent : s.currentDisk ≠ -1)
    (hread : s.bus.next.abort = false) :
    ChecksIndex (formatPartition frame i fs) s s.Formats s.selectedMbr i ↔
      IndexTolerated s.selectedMbr i := by
  obtain ⟨rc, reads, s', hrun, hformats, hmem, hempty, hinside⟩ :=
    formatPartition_outcome fs frame i hs hcurrent hread
  have hchecks : ChecksIndex (formatPartition frame i fs) s s.Formats s.selectedMbr i ↔
      (s.Formats s' ↔ s.selectedMbr.InUse i) ∧ ∀ o ∈ reads, 0 ≤ o ∧ o < 512 := by
    constructor
    · rintro ⟨rc', reads', s'', hrun', hproceeds⟩
      obtain ⟨hresult, rfl⟩ := Prod.mk.inj (Option.some.inj (hrun.symm.trans hrun'))
      obtain ⟨-, rfl⟩ := Prod.mk.inj hresult
      exact hproceeds
    · intro hproceeds
      exact ⟨rc, reads, s', hrun, hproceeds⟩
  rw [hchecks, hformats]
  by_cases hindex : 0 ≤ i ∧ i < 4
  · have htype : s.typeByte frame i = 0 ↔ s.selectedMbr.slotType i.toNat = 0 := by
      rw [← field_type_eq_zero_iff, LocalArray.field_ofMemory _ frame hindex.1 hindex.2]
      exact (type_eq_zero_iff _ _).symm
    refine iff_of_true ⟨?_, hinside hindex⟩ (Or.inl hindex)
    rw [Sector.InUse, ne_eq, htype]
    constructor
    · intro hused
      exact ⟨hindex.1, hindex.2, hused⟩
    · rintro ⟨-, -, hused⟩
      exact hused
  · have hunused : ¬s.selectedMbr.InUse i := fun h => hindex ⟨h.1, h.2.1⟩
    by_cases hbefore : -28 ≤ i ∧ i < 0
    · have hbyte : s.typeByte frame i = s.selectedMbr.mbr (450 + 16 * i).toNat :=
        if_pos ⟨by omega, by omega⟩
      rw [hbyte] at hempty ⊢
      constructor
      · rintro ⟨hproceeds, -⟩
        have hzero : s.selectedMbr.mbr (450 + 16 * i).toNat = 0 := by
          by_contra hused
          exact hunused (hproceeds.mp hused)
        exact Or.inr ⟨hbefore.1, hbefore.2, hzero⟩
      · rintro (h | ⟨-, -, hzero⟩)
        · exact absurd h hindex
        · refine ⟨iff_of_false (fun hused => hused hzero) hunused, ?_⟩
          intro o ho
          obtain rfl : o = 450 + 16 * i := by simpa [hempty hzero] using ho
          omega
    · have houtside : ¬∀ o ∈ reads, 0 ≤ o ∧ o < 512 := by
        intro hall
        have := hall _ hmem
        omega
      refine iff_of_false (fun h => houtside h.2) ?_
      rintro (h | ⟨hlow, hhigh, -⟩)
      · exact hindex h
      · exact hbefore ⟨hlow, hhigh⟩

/-- The three commands agree about an index exactly when `format_partition` has
no need of the check that it lacks. -/
theorem partition_indices_iff (hs : s.Ready) (hcurrent : s.currentDisk ≠ -1)
    (hread : s.bus.next.abort = false) :
    (ChecksIndex (Reading.deletePartition frame i) s s.Deletes s.selectedMbr i ∧
      ChecksIndex (formatPartition frame i fs) s s.Formats s.selectedMbr i ∧
      ChecksIndex (selectPartition frame i) s s.Announces (s.bus.media 0 0 0) i) ↔
    IndexTolerated s.selectedMbr i := by
  have hdelete := deletePartition_checks frame i hs hcurrent hread
  have hselect := selectPartition_checks frame i hread
  rw [formatPartition_checks_iff fs frame i hs hcurrent hread]
  constructor
  · rintro ⟨-, h, -⟩
    exact h
  · intro h
    exact ⟨hdelete, h, hselect⟩

/-- Disk 0 is selected on a machine whose operations all succeed. -/
theorem exists_selected_prompt (media : Fin 2 → Fin 2 → ℕ → Sector) :
    ∃ s, Run Command.exec (fun _ _ => True)
        (bootMachine media (fun _ => promptAnswer) primaryMaster) [.update, .selectDisk 0] s ∧
      s.Ready ∧ s.currentDisk ≠ -1 ∧ s.bus.next.abort = false ∧ s.bus.media = media ∧
      ∀ n, s.bus.answers n = promptAnswer := by
  obtain ⟨s, hrun, hdisk, hcurrent, -⟩ := exists_selected media fun _ => promptAnswer
  have hs : Reachable s := ⟨_, _, bootMachine_booted _ _ _, hrun⟩
  have hanswers : ∀ n, s.bus.answers n = promptAnswer := by
    intro n
    exact congrFun (congrArg DiskState.answers hdisk) n
  have hread : s.bus.next.abort = false := congrArg Answer.abort (hanswers _)
  exact ⟨s, hrun, hs.ready, by omega, hread, congrArg DiskState.media hdisk, hanswers⟩

theorem partition_indices_selected :
    ∃ s, Run Command.exec (fun _ _ => True) (blankMachine primaryMaster)
        [.update, .selectDisk 0] s ∧
      ((ChecksIndex (Reading.deletePartition (fun _ => 0) 3) s s.Deletes s.selectedMbr 3 ∧
        ChecksIndex (formatPartition (fun _ => 0) 3 .ext4) s s.Formats s.selectedMbr 3 ∧
        ChecksIndex (selectPartition (fun _ => 0) 3) s s.Announces (s.bus.media 0 0 0) 3) ↔
      IndexTolerated s.selectedMbr 3) := by
  obtain ⟨s, hrun, hs, hcurrent, hread, -⟩ := exists_selected_prompt fun _ _ _ => blankSector
  exact ⟨s, hrun, partition_indices_iff .ext4 (fun _ => 0) 3 hs hcurrent hread⟩

/-- Index 4 names the 16 bytes behind the table: the type is read behind the array. -/
theorem formatPartition_reads_outside :
    ∃ s, Run Command.exec (fun _ _ => True) (blankMachine primaryMaster)
        [.update, .selectDisk 0] s ∧ s.currentDisk ≠ -1 ∧ s.bus.next.abort = false ∧
      ∀ frame fs, ¬ChecksIndex (formatPartition frame 4 fs) s s.Formats s.selectedMbr 4 := by
  obtain ⟨s, hrun, hs, hcurrent, hread, -⟩ := exists_selected_prompt fun _ _ _ => blankSector
  refine ⟨s, hrun, hcurrent, hread, ?_⟩
  intro frame fs
  rw [formatPartition_checks_iff fs frame 4 hs hcurrent hread, IndexTolerated]
  omega

end Format

end EtyOS
