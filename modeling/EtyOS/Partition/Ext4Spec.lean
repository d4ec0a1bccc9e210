import EtyOS.Partition.Ext4Plan
import EtyOS.Partition.FormatStep
import EtyOS.Allocator.FormatterPool

/-!
# `format_ext4` carries out its plan

From a pool between two commands the formatter comes back. Unless it refuses
the size or cannot read the sector at its start, it has written the sectors of
`ext4Plan` up to the first failure, freed its buffer, and cleared the allocator
header behind the buffer.
-/

namespace EtyOS

open Library Memory

section InitSuperblock

variable (totalSectors : UInt32) (m : Memory) (sb : ℕ)

/-- The memory that `init_superblock` leaves. -/
def superblockIn : Memory :=
  let m := m.fill sb 0 ext4Superblock.sizeof
  let m := ext4Superblock.setAll m sb (superblockFields totalSectors)
  let m := m.fill (sb + ext4Superblock.offset .sVolumeName) 0 (ext4Superblock.size .sVolumeName)
  m.write (sb + ext4Superblock.offset .sVolumeName) volumeName

theorem run_initSuperblock (s : Machine) :
    ∃ l, (initSuperblock totalSectors sb).run s = some ((),
      s.bufferStore ((sb, 730) :: l) (superblockIn totalSectors s.memory sb)) := by
  rw [initSuperblock, run_bind_of_run _ (run_memoryZero _ _ _),
    run_bind_of_run _ (run_storeFields _ _ _ _), run_bind_of_run _ (run_memoryZero _ _ _),
    run_memoryCopy]
  simp only [bufferStore_bufferStore, Machine.memory_bufferStore, sizeof_ext4Superblock,
    List.cons_append]
  exact ⟨_, rfl⟩

theorem superblockIn_shows :
    (superblockIn totalSectors m sb).Shows sb 730 (superblockMemory totalSectors) := by
  have hzero : (m.fill sb 0 ext4Superblock.sizeof).Shows sb 730 zeroMemory := by
    rw [sizeof_ext4Superblock]
    exact shows_fill_zero m sb 730
  exact ((ext4Superblock.shows_setAll hzero _).fill _ _ _).write _ _

theorem superblockIn_frame {a : ℕ} (h : a < sb ∨ sb + 730 ≤ a) :
    superblockIn totalSectors m sb a = m a := by
  have hlen : volumeName.length = 5 := rfl
  rw [superblockIn, offset_sVolumeName, size_sVolumeName, write_frame _ _ (by omega),
    fill_frame _ _ (by omega),
    ext4Superblock.setAll_frame _ _ (by rw [sizeof_ext4Superblock]; exact h),
    fill_frame _ _ (by rw [sizeof_ext4Superblock]; exact h)]

/-- The fields that are assigned end before the place of a partition table. -/
theorem superblockFields_low :
    ∀ f ∈ (superblockFields totalSectors).map Prod.fst,
      ext4Superblock.offset f + ext4Superblock.size f ≤ 446 := by
  simp only [superblockFields, List.map_cons, List.map_nil]
  decide

theorem superblockMemory_high {i : ℕ} (hi : 446 ≤ i) :
    superblockMemory totalSectors i = 0 := by
  have hlen : volumeName.length = 5 := rfl
  rw [superblockMemory, offset_sVolumeName, size_sVolumeName, write_frame _ _ (by omega),
    fill_frame _ _ (by omega), ext4Superblock.setAll_apply_of_fields _ _ fun f hf => ?_]
  · rfl
  · right
    have hlow := superblockFields_low totalSectors f hf
    omega

end InitSuperblock

namespace Ext4Job

variable (j : Ext4Job) {s : Machine}

theorem run_fillDescriptor (hsb : j.sb = j.diskBuffer) (group : UInt32) (s : Machine) :
    ∃ l m, (j.fillDescriptor group).run s = some ((), s.bufferStore l m) ∧
      SameOutside m s.memory j.diskBuffer 512 ∧
      m.Shows j.diskBuffer 512 (j.descriptorMemory group) := by
  have hzero := shows_fill_zero s.memory j.diskBuffer 512
  have hfields := ext4GroupDesc.shows_setAll hzero (j.descriptorFields group)
  have hinodes := ext4Superblock.get_of_shows (f := .sInodesPerGroup) hfields (by decide)
  have hsize : ext4GroupDesc.sizeof ≤ 512 := by decide
  rw [fillDescriptor, run_bind_of_run _ (run_memoryZero _ _ _),
    run_bind_of_run _ (run_storeFields _ _ _ _), run_bind_of_run _ (run_bufferRead _ _),
    run_storeFields]
  simp only [bufferStore_bufferStore, Machine.memory_bufferStore, hsb, hinodes]
  refine ⟨_, _, rfl, ?_, ext4GroupDesc.shows_setAll hfields _⟩
  exact ext4GroupDesc.sameOutside_setAll (ext4GroupDesc.sameOutside_setAll
    ((SameOutside.refl _ _ _).fill 0 le_rfl le_rfl) hsize _) hsize _

theorem run_writeDescriptor (hsb : j.sb = j.diskBuffer) (group : UInt32)
    (hfree : Freeable s j.diskBuffer) :
    ∃ rc s', (j.writeDescriptor group).run s = some (rc, s') ∧
      Wrote j.controller j.drive j.diskBuffer
        [(j.gdtSector group, Sector.ofMemory (j.descriptorMemory group) 0)] s rc s' := by
  obtain ⟨l, m, hfill, hm, hshow⟩ := j.run_fillDescriptor hsb group s
  rw [writeDescriptor, run_bind_of_run _ hfill]
  exact run_storeAndWrite j _ _ l hfree hm hshow

theorem run_writeBlockBitmap (group : UInt32) (hfree : Freeable s j.diskBuffer) :
    ∃ rc s', (j.writeBlockBitmap group).run s = some (rc, s') ∧
      Wrote j.controller j.drive j.diskBuffer
        [(j.bitmapSector group, Sector.ofMemory blockBitmapMemory 0)] s rc s' := by
  have hm : SameOutside (Function.update (s.memory.fill j.diskBuffer 0 512) j.diskBuffer 0x0F)
      s.memory j.diskBuffer 512 :=
    ((SameOutside.refl _ _ _).fill 0 le_rfl le_rfl).update _ le_rfl (by omega)
  have hshow : Shows (Function.update (s.memory.fill j.diskBuffer 0 512) j.diskBuffer 0x0F)
      j.diskBuffer 512 blockBitmapMemory := (shows_fill_zero _ _ _).update 0 0x0F
  rw [writeBlockBitmap, run_bind_of_run _ (run_memoryZero _ _ _),
    run_bind_of_run _ (run_bufferWrite _ _ _ _), bufferStore_bufferStore]
  simp only [Machine.memory_bufferStore]
  exact run_storeAndWrite j _ _ _ hfree hm hshow

theorem run_writeInodeBitmap (group : UInt32) (hfree : Freeable s j.diskBuffer) :
    ∃ rc s', (j.writeInodeBitmap group).run s = some (rc, s') ∧
      Wrote j.controller j.drive j.diskBuffer
        [(j.bitmapSector group + 1, Sector.ofMemory zeroMemory 0)] s rc s' := by
  have hm : SameOutside (s.memory.fill j.diskBuffer 0 512) s.memory j.diskBuffer 512 :=
    (SameOutside.refl _ _ _).fill 0 le_rfl le_rfl
  rw [writeInodeBitmap, run_bind_of_run _ (run_memoryZero _ _ _)]
  exact run_storeAndWrite j _ _ _ hfree hm (shows_fill_zero _ _ _)

theorem run_reportProgress (group : UInt32) (s : Machine) :
    ∃ calls, (j.reportProgress group).run s = some ((), s.print calls) := by
  unfold reportProgress
  split
  · exact ⟨_, rfl⟩
  · exact ⟨[], by simp [Machine.print]⟩

/-- One group: the descriptor and the two bitmaps. -/
theorem run_formatGroup (hsb : j.sb = j.diskBuffer) (group : UInt32)
    (hfree : Freeable s j.diskBuffer) :
    ∃ rc s', (j.formatGroup group).run s = some (rc, s') ∧
      Wrote j.controller j.drive j.diskBuffer (j.groupPlan group) s rc s' := by
  obtain ⟨calls, hcalls⟩ := j.run_reportProgress group s
  have hfree' : Freeable (s.print calls) j.diskBuffer := hfree
  obtain ⟨rc, s', hrun, hwrote⟩ := wrote_then (j.run_writeDescriptor hsb group hfree')
    fun s₁ _ h₁ => wrote_then (j.run_writeBlockBitmap group (h₁.freeable hfree'))
      fun s₂ _ h₂ => j.run_writeInodeBitmap group (h₂.freeable (h₁.freeable hfree'))
  refine ⟨rc, s', ?_, hwrote.after_print⟩
  rw [formatGroup, run_bind_of_run _ hcalls]
  exact hrun

/-- The loop over the groups. -/
theorem run_formatGroups (hsb : j.sb = j.diskBuffer) (count : ℕ) (group : UInt32)
    (hfree : Freeable s j.diskBuffer) :
    ∃ rc s', (j.formatGroups count group).run s = some (rc, s') ∧
      Wrote j.controller j.drive j.diskBuffer (j.groupsPlan count group) s rc s' := by
  induction count generalizing s group with
  | zero =>
    refine ⟨0, s, rfl, ⟨rfl, rfl, rfl, [], by simp⟩, fun _ => SameOutside.refl _ _ _,
      fun h => absurd rfl h⟩
  | succ count ih =>
    exact wrote_then (j.run_formatGroup hsb group hfree)
      fun s₁ _ h₁ => ih (group + 1) (h₁.freeable hfree)

end Ext4Job

section FormatVolume

variable (c d : Fin 2) (startLba totalSectors : UInt32) {p : ℕ} {s : Machine}

/-- The local variables after the superblock has been assembled. -/
def ext4Job (p : ℕ) : Ext4Job where
  toExt4Geometry := ext4Geometry startLba totalSectors
  controller := c
  drive := d
  diskBuffer := p
  sb := p

theorem run_formatBlockGroups (hfree : Freeable s p)
    (hshow : s.memory.Shows p 730 (superblockMemory totalSectors)) :
    ∃ rc s', (formatBlockGroups (ext4Job c d startLba totalSectors p)).run s = some (rc, s') ∧
      Formatted c d p ((ext4Geometry startLba totalSectors).groupsPlan
        (ext4Geometry startLba totalSectors).numBlockGroups.toNat 0) s rc s' := by
  have hblock : UInt32.ofNat (ext4Superblock.get s.memory p .sFirstDataBlock) = 0 := by
    rw [ext4Superblock.get_of_shows hshow (by decide), get_sFirstDataBlock]
  have hread := run_bufferRead (fun m => ext4Superblock.get m p .sFirstDataBlock) s
  rw [formatBlockGroups, ext4Job, run_bind_of_run _ hread]
  simp only [hblock]
  rw [← List.append_nil (Ext4Geometry.groupsPlan _ _ _)]
  exact formatted_then ((ext4Job c d startLba totalSectors p).run_formatGroups rfl _ _ hfree)
    fun s₁ _ h₁ => formatted_finish (h₁.freeable hfree) _

/-- From the write of the superblock to the return. -/
theorem run_formatVolume (hfree : Freeable s p)
    (hshow : s.memory.Shows p 730 (superblockMemory totalSectors)) :
    ∃ rc s', (formatVolume (ext4Job c d startLba totalSectors p)).run s = some (rc, s') ∧
      Formatted c d p (ext4Plan startLba totalSectors) s rc s' := by
  rw [formatVolume, run_bind_of_run _ (run_console _ _)]
  obtain ⟨rc, s', hrun, hformat⟩ := formatted_then
    (run_writeOrFree (ext4Job c d startLba totalSectors p)
      (ext4Geometry startLba totalSectors).sbSector
      [.str "Error: cannot write superblock", .newline]
      (show Freeable (s.print _) p from hfree) (hshow.mono (by omega)))
    fun s₁ hwrite h₁ => run_formatBlockGroups c d startLba totalSectors (h₁.freeable hfree)
      ((writeOrFree_memory hwrite) ▸ hshow)
  exact ⟨rc, s', hrun, hformat.after_print⟩

end FormatVolume

section FormatInBuffer

variable (c d : Fin 2) (startLba totalSectors : UInt32) {s : Machine} {t : Block}

theorem PoolBusy.freeable {base : PoolBase} {m : Memory} (h : PoolBusy base t m)
    (ht : t = freshTail base ∨ t = clearedTail base) :
    ∀ m', SameOutside m' m base.buffer 512 → ∃ m'', EtyOS.free base m' base.buffer = some m'' :=
  fun _ hm => by
    obtain ⟨m', hrun, -⟩ := (h.congr ht hm).free ht
    exact ⟨m', hrun⟩

/-- Assembling the superblock clears the header behind the buffer. -/
theorem PoolBusy.superblock {m : Memory} {base : PoolBase} (h : PoolBusy base t m)
    (ht : t = freshTail base ∨ t = clearedTail base) :
    PoolBusy base (clearedTail base) (superblockIn totalSectors m base.buffer) := by
  apply h.cleared ht (fun a ha => superblockIn_frame _ _ _ (Or.inl ha))
  intro a ha ha'
  have hbyte := superblockIn_shows totalSectors m base.buffer (a - base.buffer) (by omega)
  rw [Nat.add_sub_cancel' (by omega)] at hbyte
  rw [hbyte, superblockMemory_high _ (by omega)]

/-- Neither check on the geometry fails: the formatter goes on to write the volume. -/
theorem formatFromSuperblock_eq (p : ℕ) (s : Machine) (hsize : ¬totalSectors < 8192) :
    ∃ l, (initSuperblock totalSectors p).run s = some ((),
        s.bufferStore ((p, 730) :: l) (superblockIn totalSectors s.memory p)) ∧
      (formatFromSuperblock c d startLba totalSectors p).run s =
        (formatVolume (ext4Job c d startLba totalSectors p)).run
          (s.bufferStore ((p, 730) :: l) (superblockIn totalSectors s.memory p)) := by
  obtain ⟨l, hinit⟩ := run_initSuperblock totalSectors p s
  have hshow := superblockIn_shows totalSectors s.memory p
  have hget : ∀ f, ext4Superblock.get (superblockIn totalSectors s.memory p) p f =
      ext4Superblock.get (superblockMemory totalSectors) 0 f := fun f =>
    ext4Superblock.get_of_shows hshow
      (by rw [← sizeof_ext4Superblock]; exact ext4Superblock.offset_add_size_le f)
  have hgroups : (totalSectors / 8 + 32768 - 1) / 32768 =
      (ext4Geometry startLba totalSectors).numBlockGroups := by
    simp only [ext4Geometry]
    grind
  have hoffset : p + ext4SuperblockOffset % sectorSize = p := rfl
  refine ⟨l, hinit, ?_⟩
  rw [formatFromSuperblock, hoffset, run_bind_of_run _ hinit,
    run_bind_of_run _ (run_bufferRead _ _)]
  simp only [Machine.memory_bufferStore, hget, get_sBlocksPerGroup]
  rw [if_neg (by decide), run_bind_of_run _ (run_bufferRead _ _)]
  simp only [Machine.memory_bufferStore, hget, get_sBlocksCountLo]
  rw [hgroups, if_neg (numBlockGroups_valid startLba totalSectors hsize)]
  rfl

/-- From `init_superblock` on the plan is written. -/
theorem run_formatFromSuperblock {p : ℕ} (hsize : ¬totalSectors < 8192)
    (hfree : ∀ l, Freeable (s.bufferStore l (superblockIn totalSectors s.memory p)) p) :
    ∃ rc s' l, (formatFromSuperblock c d startLba totalSectors p).run s = some (rc, s') ∧
      Formatted c d p (ext4Plan startLba totalSectors)
        (s.bufferStore ((p, 730) :: l) (superblockIn totalSectors s.memory p)) rc s' := by
  obtain ⟨l, -, hvolume⟩ := formatFromSuperblock_eq c d startLba totalSectors p s hsize
  obtain ⟨rc, s', hrun, hformat⟩ := run_formatVolume c d startLba totalSectors
    (hfree ((p, 730) :: l)) (superblockIn_shows totalSectors s.memory p)
  exact ⟨rc, s', l, hvolume.trans hrun, hformat⟩

theorem superblockSector_eq :
    startLba + UInt32.ofNat (ext4SuperblockOffset / sectorSize) = startLba + 2 := rfl

/-- The sector at the start cannot be read. -/
theorem run_formatInBuffer_abort (hbusy : PoolBusy s.poolBase t s.memory)
    (ht : t = freshTail s.poolBase ∨ t = clearedTail s.poolBase)
    (habort : s.bus.next.abort = true) :
    ∃ s', (formatInBuffer c d startLba totalSectors s.poolBase.buffer).run s = some (-1, s') ∧
      s'.disk = s.disk.read c d (startLba + 2) ∧ s'.config = s.config ∧
      s'.stores = s.stores ++ [(s.poolBase.buffer, 512)] ∧
      AfterFree s.poolBase t s'.memory := by
  have hm : SameOutside (s.memory.fill s.poolBase.buffer 0 512) s.memory s.poolBase.buffer 512 :=
    (SameOutside.refl _ _ _).fill 0 le_rfl le_rfl
  rw [formatInBuffer, run_bind_of_run _ (run_memoryZero _ _ _)]
  generalize s.memory.fill s.poolBase.buffer 0 512 = m at hm
  obtain ⟨m', hfree⟩ := hbusy.freeable ht _ hm
  have hread := run_readSector c d (startLba + 2) s.poolBase.buffer m
    (s.bufferStore [(s.poolBase.buffer, 512)] m)
  rw [if_pos (show (s.bufferStore _ _).bus.next.abort = true from habort)] at hread
  rw [run_bind_of_run _ (run_bufferRead _ _)]
  simp only [superblockSector_eq, Machine.memory_bufferStore, id_eq]
  rw [run_bind_of_run _ hread, run_bind_of_run _ (run_modify _ _), if_pos (by omega)]
  refine ⟨_, run_failAndFree _ hfree, rfl, rfl, ?_, hbusy.afterFree ht hm hfree⟩
  simp

/-- The sector at the start can be read. -/
theorem run_formatInBuffer (hbusy : PoolBusy s.poolBase t s.memory)
    (ht : t = freshTail s.poolBase ∨ t = clearedTail s.poolBase)
    (habort : s.bus.next.abort = false) (hsize : ¬totalSectors < 8192) :
    ∃ rc s' l, (formatInBuffer c d startLba totalSectors s.poolBase.buffer).run s =
        some (rc, s') ∧
      rc = (if ((s.disk.read c d (startLba + 2)).writeAll c d
          (ext4Plan startLba totalSectors)).1 then 0 else -1) ∧
      s'.disk = ((s.disk.read c d (startLba + 2)).writeAll c d (ext4Plan startLba totalSectors)).2 ∧
      s'.config = s.config ∧
      s'.stores = s.stores ++ (s.poolBase.buffer, 512) :: (s.poolBase.buffer, 512) ::
        (s.poolBase.buffer, 730) :: l ∧
      PoolDamaged s.poolBase s'.memory := by
  have hm₀ : SameOutside (s.memory.fill s.poolBase.buffer 0 512) s.memory s.poolBase.buffer 512 :=
    (SameOutside.refl _ _ _).fill 0 le_rfl le_rfl
  rw [formatInBuffer, run_bind_of_run _ (run_memoryZero _ _ _)]
  generalize s.memory.fill s.poolBase.buffer 0 512 = m₀ at hm₀
  have hread := run_readSector c d (startLba + 2) s.poolBase.buffer m₀
    (s.bufferStore [(s.poolBase.buffer, 512)] m₀)
  rw [show (s.bufferStore _ _).bus.next.abort = false from habort, if_neg (by simp)] at hread
  rw [run_bind_of_run _ (run_bufferRead _ _)]
  simp only [superblockSector_eq, Machine.memory_bufferStore, id_eq]
  rw [run_bind_of_run _ hread, run_bind_of_run _ (run_modify _ _), if_neg (by omega),
    if_pos rfl]
  have hframe : SameOutside ((s.bus.media c d (deviceLba (startLba + 2))).toMemory m₀
      s.poolBase.buffer) s.memory s.poolBase.buffer 512 := by
    intro a ha
    rw [Sector.toMemory_frame _ _ (by omega), hm₀ a ha]
  change ∃ rc s' l, (formatFromSuperblock c d startLba totalSectors s.poolBase.buffer).run
    (((s.bufferStore _ m₀).read c d (startLba + 2)).bufferStore _
      ((s.bus.media c d (deviceLba (startLba + 2))).toMemory m₀ s.poolBase.buffer)) = _ ∧ _
  generalize (s.bus.media c d (deviceLba (startLba + 2))).toMemory m₀ s.poolBase.buffer = m
    at hframe
  have hcleared := (hbusy.congr ht hframe).superblock totalSectors ht
  have hfreeable := hcleared.freeable (Or.inr rfl)
  obtain ⟨rc, s', l, hrun, hformat⟩ := run_formatFromSuperblock (p := s.poolBase.buffer)
    (s := ((s.bufferStore [(s.poolBase.buffer, 512)] m₀).read c d (startLba + 2)).bufferStore
      [(s.poolBase.buffer, sectorSize)] m) c d startLba totalSectors hsize
      fun l m' hm' => hfreeable m' hm'
  obtain ⟨m₁, hm₁, hfree⟩ := hformat.freed
  obtain ⟨l', hl'⟩ := hformat.stores
  refine ⟨rc, s', l ++ l', hrun, hformat.result, hformat.disk, hformat.config, ?_, ?_⟩
  · rw [hl']
    simp [sectorSize]
  · exact (hcleared.afterFree (Or.inr rfl) hm₁ hfree).2 rfl

end FormatInBuffer

end EtyOS
