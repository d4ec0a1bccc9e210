import EtyOS.Library.Recording
import EtyOS.Partition.Requests
import EtyOS.Partition.FatTables

/-!
# The formatters stop at the first failure

Every part of `format_ext4` that can fail frees the buffer when it does, and the
callers return at once, so the pointers passed to `free` are determined by the
status.
-/

namespace EtyOS

open Library

section Frees

theorem marks_console (calls : List PrintCall) :
    Marks Machine.frees (console calls) fun _ => [] :=
  Marks.of_run fun s => ⟨_, _, run_console calls s, rfl⟩

theorem marks_bufferRead {α : Type} (f : Memory → α) :
    Marks Machine.frees (bufferRead f) fun _ => [] :=
  Marks.of_run fun s => ⟨_, _, run_bufferRead f s, rfl⟩

theorem marks_bufferWrite (a n : ℕ) (f : Memory → Memory) :
    Marks Machine.frees (bufferWrite a n f) fun _ => [] :=
  Marks.of_run fun s => ⟨_, _, run_bufferWrite a n f s, rfl⟩

theorem marks_storeFields {F : Type} [DecidableEq F] (L : Layout F) (a : ℕ)
    (values : List (F × ℕ)) : Marks Machine.frees (storeFields L a values) fun _ => [] :=
  Marks.of_run fun s => ⟨_, _, run_storeFields L a values s, rfl⟩

theorem marks_initSuperblock (totalSectors : UInt32) (sb : ℕ) :
    Marks Machine.frees (initSuperblock totalSectors sb) fun _ => [] :=
  Marks.of_run fun s => by
    obtain ⟨l, hrun⟩ := run_initSuperblock totalSectors sb s
    exact ⟨_, _, hrun, rfl⟩

theorem marks_writeSector (c d : Fin 2) (lba : UInt32) (buffer : ℕ) (m : Memory) :
    Marks Machine.frees (ataWriteSectorDisk c d lba buffer m) fun _ => [] :=
  Marks.of_run fun s => ⟨_, _, run_writeSector c d lba buffer m s, rfl⟩

theorem marks_readSector (c d : Fin 2) (lba : UInt32) (buffer : ℕ) (m : Memory) :
    Marks Machine.frees (ataReadSectorDisk c d lba buffer m) fun _ => [] :=
  Marks.of_run fun s => by
    have hrun := run_readSector c d lba buffer m s
    split at hrun
    · exact ⟨_, _, hrun, rfl⟩
    · exact ⟨_, _, hrun, rfl⟩

theorem marks_kernelFree (p : ℕ) : Marks Machine.frees (kernelFree p) fun _ => [p] := by
  intro s u s' hrun
  obtain ⟨m, -, heq⟩ := Option.map_eq_some_iff.mp hrun
  obtain ⟨-, rfl⟩ := Prod.mk.inj heq
  rfl

/-- The buffer is freed, and then there is a status. -/
theorem marks_freeAndReturn (p : ℕ) {rc : ℤ} {f : ℤ → List ℕ} (hf : f rc = [p]) :
    Marks Machine.frees (do kernelFree p; return rc : Kernel ℤ) f := by
  intro s rc' s' hrun
  obtain ⟨u, s₁, hfree, hreturn⟩ := run_bind_eq_some hrun
  obtain ⟨rfl, rfl⟩ := Prod.mk.inj (Option.some.inj hreturn)
  rw [hf]
  exact marks_kernelFree p s u _ hfree

/-- The exits with an error free the buffer once, and their status is not 0. -/
theorem marks_failAndFree (p : ℕ) (error : List PrintCall) {f : ℤ → List ℕ} (hf : f (-1) = [p]) :
    Marks Machine.frees (failAndFree p error) f :=
  (marks_console _).bind fun _ => marks_freeAndReturn p hf

variable (j : Ext4Job) (group : UInt32)

theorem marks_writeOrFree (lba : UInt32) (error : List PrintCall) :
    Marks Machine.frees (j.writeOrFree lba error) (onFailure [j.diskBuffer]) := by
  refine (marks_bufferRead _).bind fun m => (marks_writeSector _ _ _ _ _).bind fun rc => ?_
  apply Marks.ite
  · intro _
    exact marks_failAndFree j.diskBuffer error rfl
  · intro _
    exact Marks.pure rfl

theorem marks_writeDescriptor :
    Marks Machine.frees (j.writeDescriptor group) (onFailure [j.diskBuffer]) := by
  refine Marks.bind ?_ fun _ => marks_writeOrFree j _ _
  refine (marks_bufferWrite _ _ _).bind fun _ => (marks_storeFields _ _ _).bind fun _ => ?_
  exact (marks_bufferRead _).bind fun _ => marks_storeFields _ _ _

theorem marks_writeBlockBitmap :
    Marks Machine.frees (j.writeBlockBitmap group) (onFailure [j.diskBuffer]) :=
  (marks_bufferWrite _ _ _).bind fun _ => (marks_bufferWrite _ _ _).bind fun _ =>
    marks_writeOrFree j _ _

theorem marks_writeInodeBitmap :
    Marks Machine.frees (j.writeInodeBitmap group) (onFailure [j.diskBuffer]) :=
  (marks_bufferWrite _ _ _).bind fun _ => marks_writeOrFree j _ _

/-- The three exits of an iteration. -/
theorem marks_formatGroup :
    Marks Machine.frees (j.formatGroup group) (onFailure [j.diskBuffer]) := by
  have hprogress : Marks Machine.frees (j.reportProgress group) fun _ => [] :=
    Marks.ite (fun _ => marks_console _) fun _ => Marks.pure rfl
  refine hprogress.bind fun _ => (marks_writeDescriptor j group).andThen ?_
  exact (marks_writeBlockBitmap j group).andThen (marks_writeInodeBitmap j group)

theorem marks_formatGroups (count : ℕ) :
    Marks Machine.frees (j.formatGroups count group) (onFailure [j.diskBuffer]) := by
  induction count generalizing group with
  | zero => exact Marks.pure rfl
  | succ count ih => exact (marks_formatGroup j group).andThen (ih (group + 1))

/-- From the group loop on the buffer is freed once, by the iteration that fails
or after the last one. -/
theorem marks_formatBlockGroups :
    Marks Machine.frees (formatBlockGroups j) fun _ => [j.diskBuffer] := by
  refine (marks_bufferRead _).bind fun firstBlock => (marks_formatGroups _ 0 _).andFinally ?_
  exact (marks_console _).bind fun _ => marks_freeAndReturn _ rfl

theorem marks_formatVolume : Marks Machine.frees (formatVolume j) fun _ => [j.diskBuffer] :=
  (marks_console _).bind fun _ => (marks_writeOrFree j _ _).andFinally (marks_formatBlockGroups j)

variable (c d : Fin 2) (startLba totalSectors : UInt32) (p : ℕ)

theorem marks_formatFromSuperblock :
    Marks Machine.frees (formatFromSuperblock c d startLba totalSectors p) fun _ => [p] := by
  refine (marks_initSuperblock _ _).bind fun _ => (marks_bufferRead _).bind fun perGroup => ?_
  apply Marks.ite
  · intro _
    exact marks_failAndFree p _ rfl
  · intro _
    refine (marks_bufferRead _).bind fun total => ?_
    apply Marks.ite
    · intro _
      exact marks_failAndFree p _ rfl
    · intro _
      exact marks_formatVolume _

theorem marks_formatInBuffer :
    Marks Machine.frees (formatInBuffer c d startLba totalSectors p) fun _ => [p] := by
  refine (marks_bufferWrite _ _ _).bind fun _ => (marks_bufferRead _).bind fun m => ?_
  refine (marks_readSector _ _ _ _ _).bind fun r => ?_
  refine Marks.bind (Marks.of_run fun s => ⟨_, _, run_modify _ s, rfl⟩) fun _ => ?_
  apply Marks.ite
  · intro _
    exact marks_failAndFree p _ rfl
  · intro _
    exact marks_formatFromSuperblock c d startLba totalSectors p

/-- The frees of a call that gets its buffer. -/
theorem formatExt4_frees {s s' : Machine} {p : ℕ} {m : Memory} {rc : ℤ}
    (halloc : allocate s.poolBase s.memory 512 = some (p, m)) (hp : p ≠ 0)
    (hrun : (formatExt4 c d startLba totalSectors).run s = some (rc, s')) :
    s'.frees = s.frees ++ if totalSectors < 8192 then [] else [p] := by
  rw [formatExt4, run_bind_of_run _ (run_console _ _)] at hrun
  by_cases hsize : totalSectors < 8192
  · rw [if_pos hsize, run_bind_of_run _ (run_console _ _)] at hrun
    obtain ⟨-, rfl⟩ := Prod.mk.inj (Option.some.inj hrun)
    rw [if_pos hsize, List.append_nil]
    rfl
  · rw [if_neg hsize, run_bind_of_run _ (run_kernelAllocate (s := s.print _) halloc),
      if_neg hp] at hrun
    rw [if_neg hsize]
    have hmarked := marks_formatInBuffer c d startLba totalSectors p _ _ _ hrun
    exact hmarked

end Frees

namespace Event

def isRead : Event → Bool
  | .read _ _ _ _ => true
  | _ => false

def isWrite : Event → Bool
  | .write _ _ _ _ _ => true
  | _ => false

end Event

/-- Nothing follows an operation that fails, and the status tells whether one did. -/
structure StopsAtFailure (evs : List Event) (rc : ℤ) (accepted : Prop) (reads writes : ℕ) :
    Prop where
  stops : ∀ e ∈ evs.dropLast, e.Transferred
  failed : (∃ e ∈ evs, ¬e.Transferred) → rc = -1
  result : rc = 0 ↔ accepted ∧ ∀ e ∈ evs, e.Transferred
  complete : rc = 0 → evs.countP Event.isRead = reads ∧ evs.countP Event.isWrite = writes

section Stops

namespace DiskState

variable (c d : Fin 2) (k : DiskState)

/-- Only the last write of a list can fail. -/
theorem writeAll_stops (plan : List (UInt32 × Sector)) {evs : List Event}
    (htrace : (k.writeAll c d plan).2.trace = k.trace ++ evs) :
    ∀ e ∈ evs.dropLast, e.Transferred := by
  induction plan generalizing k evs with
  | nil =>
    have hnil : evs = [] := by simpa [writeAll] using htrace
    simp [hnil]
  | cons w plan ih =>
    unfold writeAll at htrace
    by_cases hok : k.next.ok
    · rw [if_pos hok] at htrace
      obtain ⟨rest, hrest, -⟩ := writeAll_events c d (k.write c d w.1 w.2) plan
      have hevs : evs = .write c d w.1 w.2 true :: rest := by
        rw [hrest] at htrace
        simpa [write, hok] using htrace.symm
      have hlater := ih (k.write c d w.1 w.2) hrest
      rw [hevs]
      cases rest with
      | nil => simp
      | cons e rest => simpa [Event.Transferred] using hlater
    · rw [if_neg hok] at htrace
      have hevs : evs = [.write c d w.1 w.2 false] := by simpa [write, hok] using htrace.symm
      simp [hevs]

theorem countP_writes (plan : List (UInt32 × Sector)) :
    (plan.map fun w => Event.write c d w.1 w.2 true).countP Event.isRead = 0 ∧
      (plan.map fun w => Event.write c d w.1 w.2 true).countP Event.isWrite = plan.length := by
  rw [List.countP_map, List.countP_map]
  constructor
  · exact List.countP_eq_zero.mpr fun w _ => by simp [Event.isRead]
  · exact List.countP_eq_length.mpr fun w _ => rfl

/-- The writes of a plan, with the status that the formatters make of them. -/
theorem writeAll_stopsAtFailure (plan : List (UInt32 × Sector)) :
    ∃ evs, (k.writeAll c d plan).2.trace = k.trace ++ evs ∧
      StopsAtFailure evs (if (k.writeAll c d plan).1 then 0 else -1) True 0 plan.length := by
  obtain ⟨evs, htrace, -, hall, hdone⟩ := writeAll_events c d k plan
  refine ⟨evs, htrace, k.writeAll_stops c d plan htrace, ?_, ?_, ?_⟩
  · rintro ⟨e, he, hfailed⟩
    exact if_neg fun h => hfailed (hall.mp h e he)
  · rw [← hall]
    simp
  · intro hzero
    have h : (k.writeAll c d plan).1 = true := by
      by_contra hfail
      simp [hfail] at hzero
    rw [hdone h]
    exact countP_writes c d plan

theorem formatExt4_stopsAtFailure (startLba totalSectors : UInt32) :
    ∃ evs, (k.formatExt4 c d startLba totalSectors).2.trace = k.trace ++ evs ∧
      StopsAtFailure evs (k.formatExt4 c d startLba totalSectors).1 (¬totalSectors < 8192) 1
        (1 + 3 * groupsOf totalSectors.toNat) := by
  unfold formatExt4
  by_cases hsize : totalSectors < 8192
  · rw [if_pos hsize]
    exact ⟨[], by simp, by simp, by simp, by simp [hsize], by simp⟩
  · rw [if_neg hsize]
    by_cases habort : k.next.abort = true
    · rw [if_pos habort]
      refine ⟨[.read c d (startLba + 2) false], by simp [read, habort], by simp, by simp, ?_, ?_⟩
      · simp [Event.Transferred]
      · simp
    · obtain ⟨evs, htrace, hplan⟩ := (k.read c d (startLba + 2)).writeAll_stopsAtFailure c d
        (ext4Plan startLba totalSectors)
      rw [if_neg habort]
      refine ⟨.read c d (startLba + 2) true :: evs, ?_, ?_, ?_, ?_, ?_⟩
      · dsimp only
        rw [htrace]
        simp [read, habort]
      · cases evs with
        | nil => simp
        | cons e evs => simpa [Event.Transferred] using hplan.stops
      · intro h
        apply hplan.failed
        simpa [Event.Transferred] using h
      · have hresult := hplan.result
        simpa [Event.Transferred, hsize] using hresult
      · intro hzero
        obtain ⟨hreads, hwrites⟩ := hplan.complete hzero
        rw [ext4Plan_length] at hwrites
        refine ⟨?_, ?_⟩
        · rw [List.countP_cons_of_pos rfl, hreads]
        · rw [List.countP_cons_of_neg (by simp [Event.isWrite]), hwrites]
          rfl

end DiskState

variable (c d : Fin 2) (startLba totalSectors : UInt32)

/-- Both formatters come back from every call. The sector operations that they
have made stop at the first failure, the status is 0 exactly when the size is
accepted and none has failed, and `format_ext4` has freed its buffer once. -/
theorem formatters_stop_at_failure {s : Machine} (hs : s.Ready) :
    (∃ rc s' evs, (formatFat32 c d startLba totalSectors).run s = some (rc, s') ∧
      s'.trace = s.trace ++ evs ∧ StopsAtFailure evs rc True 0 3) ∧
    ∃ p m rc s' evs, allocate s.poolBase s.memory 512 = some (p, m) ∧ p ≠ 0 ∧
      (formatExt4 c d startLba totalSectors).run s = some (rc, s') ∧
      s'.trace = s.trace ++ evs ∧
      StopsAtFailure evs rc (¬totalSectors < 8192) 1 (1 + 3 * groupsOf totalSectors.toNat) ∧
      s'.frees = s.frees ++ if totalSectors < 8192 then [] else [p] := by
  constructor
  · obtain ⟨s', hrun, hdisk⟩ := formatFat32_actsOnDisk c d startLba totalSectors s
    obtain ⟨evs, htrace, hstops⟩ :=
      s.disk.writeAll_stopsAtFailure c d (fat32Plan startLba totalSectors)
    exact ⟨_, s', evs, hrun, (congrArg DiskState.trace hdisk).trans htrace, hstops⟩
  · obtain ⟨m, t, halloc, -⟩ := PoolReady.allocate hs
    obtain ⟨s', hrun, hsystem, -⟩ := formatExt4_does c d startLba totalSectors s hs
    obtain ⟨evs, htrace, hstops⟩ := s.disk.formatExt4_stopsAtFailure c d startLba totalSectors
    have htrace' : s'.trace = s.trace ++ evs :=
      (congrArg (fun t : System => t.disk.trace) hsystem).trans htrace
    exact ⟨s.poolBase.buffer, m, _, s', evs, halloc, PoolBase.buffer_ne_zero, hrun, htrace', hstops,
      formatExt4_frees c d startLba totalSectors halloc PoolBase.buffer_ne_zero hrun⟩

theorem formatters_stop_at_failure_blank :
    (∃ rc s' evs, (formatFat32 0 0 2048 65536).run (blankMachine fun _ => none) =
        some (rc, s') ∧
      s'.trace = (blankMachine fun _ => none).trace ++ evs ∧ StopsAtFailure evs rc True 0 3) ∧
    ∃ p m rc s' evs,
      allocate (blankMachine fun _ => none).poolBase (blankMachine fun _ => none).memory 512 =
        some (p, m) ∧ p ≠ 0 ∧
      (formatExt4 0 0 2048 65536).run (blankMachine fun _ => none) = some (rc, s') ∧
      s'.trace = (blankMachine fun _ => none).trace ++ evs ∧
      StopsAtFailure evs rc (¬(65536 : UInt32) < 8192) 1
        (1 + 3 * groupsOf (65536 : UInt32).toNat) ∧
      s'.frees = (blankMachine fun _ => none).frees ++ [p] :=
  formatters_stop_at_failure 0 0 2048 65536 (blankMachine_booted _).ready

end Stops

end EtyOS
