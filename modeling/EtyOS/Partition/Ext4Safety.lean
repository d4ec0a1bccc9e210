import EtyOS.Kernel.Boot
import EtyOS.Partition.Ext4Spec

/-!
# What `format_ext4` does to the disks and to the pool

`DiskState.formatExt4` is the formatter seen from the disks. The pool survives
every call in one of its two states, but a call that gets past its read stores
730 bytes into the buffer of 512 and so loses the rest of the pool.
-/

namespace EtyOS

open Library Memory FreeList

/-- `format_ext4` as an operation on the disks. -/
def DiskState.formatExt4 (c d : Fin 2) (startLba totalSectors : UInt32) (k : DiskState) :
    ℤ × DiskState :=
  if totalSectors < 8192 then (-1, k)
  else if k.next.abort then (-1, k.read c d (startLba + 2))
  else
    let r := (k.read c d (startLba + 2)).writeAll c d (ext4Plan startLba totalSectors)
    (if r.1 then 0 else -1, r.2)

/-- Every store since `s` lies in the 512 bytes that `allocate` returned, and
the blocks of the pool are what they were. -/
def BufferRespected (s s' : Machine) : Prop :=
  (∀ p m, allocate s.poolBase s.memory 512 = some (p, m) →
    ∀ a n, (a, n) ∈ s'.stores.drop s.stores.length → p ≤ a ∧ a + n ≤ p + 512) ∧
  ∀ bs, Chain s.memory s.poolBase.addr bs → Chain s'.memory s.poolBase.addr bs

section Outcomes

variable (c d : Fin 2) (startLba totalSectors : UInt32) {s : Machine}

theorem run_kernelAllocate {p : ℕ} {m : Memory} {size : UInt64}
    (h : allocate s.poolBase s.memory size = some (p, m)) :
    (kernelAllocate size).run s = some (p, s.setMemory m) := by
  change Option.map _ _ = _
  rw [h]
  rfl

theorem run_formatExt4_small (hsize : totalSectors < 8192) :
    ∃ calls, (formatExt4 c d startLba totalSectors).run s = some (-1, s.print calls) := by
  rw [formatExt4, run_bind_of_run _ (run_console _ _), if_pos hsize,
    run_bind_of_run _ (run_console _ _)]
  simp [Machine.print]

/-- A request that is large enough gets its buffer. -/
theorem run_formatExt4_large (hsize : ¬totalSectors < 8192) {m : Memory}
    (halloc : allocate s.poolBase s.memory 512 = some (s.poolBase.buffer, m)) :
    ∃ calls, (formatExt4 c d startLba totalSectors).run s =
      (formatInBuffer c d startLba totalSectors s.poolBase.buffer).run
        ((s.print calls).setMemory m) := by
  rw [formatExt4, run_bind_of_run _ (run_console _ _), if_neg hsize,
    run_bind_of_run _ (run_kernelAllocate (s := s.print _) halloc),
    if_neg PoolBase.buffer_ne_zero]
  exact ⟨_, rfl⟩

/-- The sector at the start cannot be read: the buffer is freed, the pool is as before. -/
theorem run_formatExt4_unread (hs : s.Ready) (hsize : ¬totalSectors < 8192)
    (habort : s.bus.next.abort = true) :
    ∃ s', (formatExt4 c d startLba totalSectors).run s = some (-1, s') ∧
      s'.disk = s.disk.read c d (startLba + 2) ∧ s'.config = s.config ∧
      s'.stores = s.stores ++ [(s.poolBase.buffer, 512)] ∧
      (PoolFresh s.poolBase s.memory → PoolFresh s.poolBase s'.memory) ∧ s'.Ready := by
  obtain ⟨m, t, halloc, hbusy, htail⟩ := PoolReady.allocate hs
  have ht : t = freshTail s.poolBase ∨ t = clearedTail s.poolBase := htail.imp And.right And.right
  obtain ⟨calls, hrun⟩ := run_formatExt4_large c d startLba totalSectors hsize halloc
  obtain ⟨s', hrun', hdisk, hconfig, hstores, hafter⟩ := run_formatInBuffer_abort c d startLba
    totalSectors (s := (s.print calls).setMemory m) hbusy ht habort
  refine ⟨s', hrun.trans hrun', hdisk, hconfig, hstores, ?_, ?_⟩
  · intro hfresh
    rcases htail with ⟨-, hfreshTail⟩ | ⟨hdamaged, -⟩
    · exact hafter.1 hfreshTail
    · exact absurd hdamaged hfresh.not_damaged
  · rw [Machine.Ready, Machine.poolBase_eq_of_config hconfig]
    exact hafter.ready ht

/-- The sector at the start is read: the plan is written, the pool is damaged. -/
theorem run_formatExt4_read (hs : s.Ready) (hsize : ¬totalSectors < 8192)
    (habort : s.bus.next.abort = false) :
    ∃ rc s' l, (formatExt4 c d startLba totalSectors).run s = some (rc, s') ∧
      rc = (if ((s.disk.read c d (startLba + 2)).writeAll c d
          (ext4Plan startLba totalSectors)).1 then 0 else -1) ∧
      s'.disk = ((s.disk.read c d (startLba + 2)).writeAll c d (ext4Plan startLba totalSectors)).2 ∧
      s'.config = s.config ∧
      s'.stores = s.stores ++ (s.poolBase.buffer, 512) :: (s.poolBase.buffer, 512) ::
        (s.poolBase.buffer, 730) :: l ∧ s'.Ready := by
  obtain ⟨m, t, halloc, hbusy, htail⟩ := PoolReady.allocate hs
  have ht : t = freshTail s.poolBase ∨ t = clearedTail s.poolBase := htail.imp And.right And.right
  obtain ⟨calls, hrun⟩ := run_formatExt4_large c d startLba totalSectors hsize halloc
  obtain ⟨rc, s', l, hrun', hrc, hdisk, hconfig, hstores, hpool⟩ := run_formatInBuffer c d startLba
    totalSectors (s := (s.print calls).setMemory m) hbusy ht habort hsize
  refine ⟨rc, s', l, hrun.trans hrun', hrc, hdisk, hconfig, hstores, ?_⟩
  rw [Machine.Ready, Machine.poolBase_eq_of_config hconfig]
  exact Or.inr hpool

theorem formatExt4_does :
    Does (formatExt4 c d startLba totalSectors)
      (System.onDisk (DiskState.formatExt4 c d startLba totalSectors)) := by
  intro s hs
  by_cases hsize : totalSectors < 8192
  · obtain ⟨calls, hrun⟩ := run_formatExt4_small c d startLba totalSectors (s := s) hsize
    refine ⟨s.print calls, ?_, ?_, hs⟩
    · rw [hrun, System.onDisk, DiskState.formatExt4, if_pos hsize]
    · rw [System.onDisk, DiskState.formatExt4, if_pos hsize]
      rfl
  · cases habort : s.bus.next.abort with
    | true =>
      obtain ⟨s', hrun, hdisk, hconfig, -, -, hready⟩ :=
        run_formatExt4_unread c d startLba totalSectors hs hsize habort
      refine ⟨s', ?_, ?_, hready⟩
      · rw [hrun]
        simp [System.onDisk, DiskState.formatExt4, hsize, Machine.system, habort]
      · simp [System.onDisk, DiskState.formatExt4, hsize, Machine.system, habort, hdisk, hconfig]
    | false =>
      obtain ⟨rc, s', l, hrun, hrc, hdisk, hconfig, -, hready⟩ :=
        run_formatExt4_read c d startLba totalSectors hs hsize habort
      refine ⟨s', ?_, ?_, hready⟩
      · rw [hrun, hrc]
        simp [System.onDisk, DiskState.formatExt4, hsize, Machine.system, habort]
        rfl
      · simp [System.onDisk, DiskState.formatExt4, hsize, Machine.system, habort, hdisk, hconfig]

end Outcomes

section Buffer

variable (c d : Fin 2) (startLba totalSectors : UInt32) {s : Machine}

/-- A call that stops before the superblock leaves the pool as it was. -/
theorem bufferRespected_early (hfresh : PoolFresh s.poolBase s.memory)
    (hearly : totalSectors < 8192 ∨ s.bus.next.abort = true) :
    ∃ rc s', (formatExt4 c d startLba totalSectors).run s = some (rc, s') ∧
      BufferRespected s s' := by
  by_cases hsize : totalSectors < 8192
  · obtain ⟨calls, hrun⟩ := run_formatExt4_small c d startLba totalSectors (s := s) hsize
    refine ⟨-1, s.print calls, hrun, fun p m _ a n hstore => ?_, fun bs hbs => hbs⟩
    simp at hstore
  · obtain ⟨s', hrun, -, -, hstores, hkept, -⟩ := run_formatExt4_unread c d startLba totalSectors
      (Or.inl hfresh) hsize (hearly.resolve_left hsize)
    refine ⟨-1, s', hrun, ?_, ?_⟩
    · intro p m' hp a n hstore
      obtain ⟨m, -, halloc, -⟩ := PoolReady.allocate (Or.inl hfresh)
      obtain ⟨rfl, -⟩ := Prod.mk.inj (Option.some.inj (halloc.symm.trans hp))
      have hmem : (a, n) = (s.poolBase.buffer, 512) := by simpa [hstores] using hstore
      obtain ⟨rfl, rfl⟩ := Prod.mk.inj hmem
      exact ⟨le_rfl, le_rfl⟩
    · intro bs hbs
      rw [hbs.unique hfresh]
      exact hkept hfresh

/-- A call that assembles the superblock stores past the end of its buffer. -/
theorem bufferRespected_late (hready : s.Ready)
    (hlate : ¬(totalSectors < 8192 ∨ s.bus.next.abort = true)) :
    ∃ rc s', (formatExt4 c d startLba totalSectors).run s = some (rc, s') ∧
      ¬BufferRespected s s' := by
  obtain ⟨hsize, habort⟩ := not_or.mp hlate
  obtain ⟨rc, s', l, hrun, -, -, -, hstores, -⟩ := run_formatExt4_read c d startLba totalSectors
    hready hsize (Bool.eq_false_iff.mpr habort)
  refine ⟨rc, s', hrun, ?_⟩
  intro hrespected
  obtain ⟨m, -, halloc, -⟩ := PoolReady.allocate hready
  have hstore : (s.poolBase.buffer, 730) ∈ s'.stores.drop s.stores.length := by
    rw [hstores]
    simp
  have hinside := hrespected.1 _ _ halloc _ _ hstore
  omega

/-- From a fresh pool the call comes back, and it respects its buffer exactly
when it refuses the size or cannot read the sector at the start. -/
theorem formatExt4_bufferRespected_iff (s : Machine) (m : Memory) :
    ∃ rc s', (formatExt4 c d startLba totalSectors).run
        (s.setMemory (memoryAllocatorInit s.poolBase m)) = some (rc, s') ∧
      (BufferRespected (s.setMemory (memoryAllocatorInit s.poolBase m)) s' ↔
        totalSectors < 8192 ∨ s.bus.next.abort = true) := by
  have hfresh : PoolFresh s.poolBase (memoryAllocatorInit s.poolBase m) := poolFresh_init m
  by_cases hearly : totalSectors < 8192 ∨ s.bus.next.abort = true
  · obtain ⟨rc, s', hrun, hrespected⟩ := bufferRespected_early c d startLba totalSectors
      (s := s.setMemory (memoryAllocatorInit s.poolBase m)) hfresh hearly
    exact ⟨rc, s', hrun, iff_of_true hrespected hearly⟩
  · obtain ⟨rc, s', hrun, hrespected⟩ := bufferRespected_late c d startLba totalSectors
      (s := s.setMemory (memoryAllocatorInit s.poolBase m)) (Or.inl hfresh) hearly
    exact ⟨rc, s', hrun, iff_of_false hrespected hearly⟩

/-- The smallest accepted size, on disks that are in order. -/
theorem formatExt4_overruns_buffer :
    ∃ rc s', (formatExt4 0 0 2048 8192).run (blankMachine fun _ => none) = some (rc, s') ∧
      ¬BufferRespected (blankMachine fun _ => none) s' :=
  bufferRespected_late 0 0 2048 8192 (blankMachine_booted _).ready (by decide)

end Buffer

end EtyOS
