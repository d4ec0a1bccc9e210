import EtyOS.Kernel.DiskState
import EtyOS.Partition.Ext4

/-!
# Steps of a formatter that holds a heap buffer

A part of `format_ext4` writes some sectors from the buffer at `p`. When all of
them succeed it yields 0 and still holds the buffer; at the first failure it
frees the buffer and yields -1. `Wrote` says this for a list of sectors, and
`wrote_then` composes two parts the way the source does, with an early return.
-/

namespace EtyOS

open Library Memory

/-- The buffer at `p` can be freed, whatever has been stored in it. -/
def Freeable (s : Machine) (p : ℕ) : Prop :=
  ∀ m, SameOutside m s.memory p 512 → ∃ m', free s.poolBase m p = some m'

/-- The sectors of `plan` have been written, up to the first failure. -/
structure Performed (c d : Fin 2) (plan : List (UInt32 × Sector)) (s : Machine) (rc : ℤ)
    (s' : Machine) : Prop where
  result : rc = if (s.disk.writeAll c d plan).1 then 0 else -1
  disk : s'.disk = (s.disk.writeAll c d plan).2
  config : s'.config = s.config
  stores : ∃ l, s'.stores = s.stores ++ l

/-- A part of the formatter that holds the buffer when it has succeeded. -/
structure Wrote (c d : Fin 2) (p : ℕ) (plan : List (UInt32 × Sector)) (s : Machine) (rc : ℤ)
    (s' : Machine) : Prop extends Performed c d plan s rc s' where
  kept : rc = 0 → SameOutside s'.memory s.memory p 512
  freed : rc ≠ 0 → ∃ m, SameOutside m s.memory p 512 ∧ free s.poolBase m p = some s'.memory

/-- The formatter has returned; it has freed the buffer in any case. -/
structure Formatted (c d : Fin 2) (p : ℕ) (plan : List (UInt32 × Sector)) (s : Machine) (rc : ℤ)
    (s' : Machine) : Prop extends Performed c d plan s rc s' where
  freed : ∃ m, SameOutside m s.memory p 512 ∧ free s.poolBase m p = some s'.memory

section Composition

theorem run_kernelFree {s : Machine} {p : ℕ} {m : Memory}
    (h : free s.poolBase s.memory p = some m) :
    (kernelFree p).run s = some ((), s.freed p m) := by
  change Option.map _ _ = _
  rw [h]
  rfl

variable {c d : Fin 2} {p : ℕ} {plan plan' : List (UInt32 × Sector)} {s s₁ s₂ : Machine} {rc : ℤ}

theorem Machine.poolBase_eq_of_config (h : s₁.config = s.config) : s₁.poolBase = s.poolBase :=
  congrArg Config.poolBase h

theorem Freeable.of_sameOutside (h : Freeable s p) (hconfig : s₁.config = s.config)
    (hmem : SameOutside s₁.memory s.memory p 512) : Freeable s₁ p := by
  intro m hm
  rw [Machine.poolBase_eq_of_config hconfig]
  exact h m (hm.trans hmem)

theorem Freeable.bufferStore (h : Freeable s p) {m : Memory} (hm : SameOutside m s.memory p 512)
    (l : List (ℕ × ℕ)) : Freeable (s.bufferStore l m) p := fun m' hm' => h m' (hm'.trans hm)

theorem Wrote.freeable (h : Wrote c d p plan s 0 s₁) (hfree : Freeable s p) : Freeable s₁ p :=
  hfree.of_sameOutside h.config (h.kept rfl)

theorem Performed.all_ok (h : Performed c d plan s 0 s₁) : (s.disk.writeAll c d plan).1 = true := by
  have hresult := h.result
  split at hresult
  · assumption
  · omega

theorem Performed.not_ok (h : Performed c d plan s rc s₁) (hrc : rc ≠ 0) :
    (s.disk.writeAll c d plan).1 = false := by
  have hresult := h.result
  split at hresult
  · exact absurd hresult hrc
  · rename_i hno
    exact Bool.eq_false_iff.mpr hno

/-- A part that has succeeded is followed by the next part. -/
theorem Performed.trans (h : Performed c d plan s 0 s₁) (h' : Performed c d plan' s₁ rc s₂) :
    Performed c d (plan ++ plan') s rc s₂ := by
  obtain ⟨l, hl⟩ := h.stores
  obtain ⟨l', hl'⟩ := h'.stores
  have hrun : s.disk.writeAll c d (plan ++ plan') = s₁.disk.writeAll c d plan' := by
    rw [DiskState.writeAll_append, if_pos h.all_ok, h.disk]
  exact ⟨by rw [hrun, h'.result], by rw [hrun, h'.disk], h'.config.trans h.config,
    l ++ l', by rw [hl', hl, List.append_assoc]⟩

/-- A part that has failed is the last. -/
theorem Performed.stop (h : Performed c d plan s rc s₁) (hrc : rc ≠ 0) :
    Performed c d (plan ++ plan') s (-1) s₁ := by
  have hno := h.not_ok hrc
  have hrun : s.disk.writeAll c d (plan ++ plan') = s.disk.writeAll c d plan := by
    rw [DiskState.writeAll_append, if_neg (by simp [hno])]
  exact ⟨by rw [hrun, hno]; rfl, by rw [hrun, h.disk], h.config, h.stores⟩

theorem Wrote.trans (h : Wrote c d p plan s 0 s₁) (h' : Wrote c d p plan' s₁ rc s₂) :
    Wrote c d p (plan ++ plan') s rc s₂ := by
  refine ⟨h.toPerformed.trans h'.toPerformed, fun hrc => (h'.kept hrc).trans (h.kept rfl),
    fun hrc => ?_⟩
  obtain ⟨m, hm, hfree⟩ := h'.freed hrc
  rw [Machine.poolBase_eq_of_config h.config] at hfree
  exact ⟨m, hm.trans (h.kept rfl), hfree⟩

theorem Wrote.stop (h : Wrote c d p plan s rc s₁) (hrc : rc ≠ 0) :
    Wrote c d p (plan ++ plan') s (-1) s₁ :=
  ⟨h.toPerformed.stop hrc, fun h => by omega, fun _ => h.freed hrc⟩

theorem Wrote.formatted (h : Wrote c d p plan s rc s₁) (hrc : rc ≠ 0) :
    Formatted c d p (plan ++ plan') s (-1) s₁ :=
  ⟨h.toPerformed.stop hrc, h.freed hrc⟩

theorem Wrote.then_formatted (h : Wrote c d p plan s 0 s₁) (h' : Formatted c d p plan' s₁ rc s₂) :
    Formatted c d p (plan ++ plan') s rc s₂ := by
  obtain ⟨m, hm, hfree⟩ := h'.freed
  rw [Machine.poolBase_eq_of_config h.config] at hfree
  exact ⟨h.toPerformed.trans h'.toPerformed, m, hm.trans (h.kept rfl), hfree⟩

/-- Stores inside the buffer and console output before a part. -/
theorem Wrote.after_store {l : List (ℕ × ℕ)} {m : Memory} (hm : SameOutside m s.memory p 512)
    (h : Wrote c d p plan (s.bufferStore l m) rc s₁) : Wrote c d p plan s rc s₁ := by
  obtain ⟨l', hl'⟩ := h.stores
  refine ⟨⟨h.result, h.disk, h.config, l ++ l', by simp [hl']⟩, fun hrc => (h.kept hrc).trans hm,
    fun hrc => ?_⟩
  obtain ⟨m', hm', hfree⟩ := h.freed hrc
  exact ⟨m', hm'.trans hm, hfree⟩

theorem Wrote.after_print {calls : List PrintCall} (h : Wrote c d p plan (s.print calls) rc s₁) :
    Wrote c d p plan s rc s₁ :=
  ⟨⟨h.result, h.disk, h.config, h.stores⟩, h.kept, h.freed⟩

theorem Formatted.after_print {calls : List PrintCall}
    (h : Formatted c d p plan (s.print calls) rc s₁) : Formatted c d p plan s rc s₁ :=
  ⟨⟨h.result, h.disk, h.config, h.stores⟩, h.freed⟩

/-- The end of the formatter: a message, and the buffer is freed. -/
theorem formatted_finish (hfree : Freeable s p) (calls : List PrintCall) :
    ∃ rc s₁, (do console calls; kernelFree p; return 0 : Kernel ℤ).run s = some (rc, s₁) ∧
      Formatted c d p [] s rc s₁ := by
  obtain ⟨m, hm⟩ := hfree s.memory (SameOutside.refl _ _ _)
  refine ⟨0, (s.print calls).freed p m, ?_, ⟨rfl, rfl, rfl, [], by simp⟩,
    s.memory, SameOutside.refl _ _ _, hm⟩
  rw [run_bind_of_run _ (run_console _ _),
    run_bind_of_run _ (run_kernelFree (s := s.print calls) hm)]
  rfl

/-- Two parts with the early return of the source between them. -/
theorem wrote_then {x y : Kernel ℤ}
    (hx : ∃ rc s₁, x.run s = some (rc, s₁) ∧ Wrote c d p plan s rc s₁)
    (hy : ∀ s₁, x.run s = some (0, s₁) → Wrote c d p plan s 0 s₁ →
      ∃ rc s₂, y.run s₁ = some (rc, s₂) ∧ Wrote c d p plan' s₁ rc s₂) :
    ∃ rc s₂, (do let rc ← x; if rc ≠ 0 then return -1 else y : Kernel ℤ).run s = some (rc, s₂) ∧
      Wrote c d p (plan ++ plan') s rc s₂ := by
  obtain ⟨rc, s₁, hrun, hwrote⟩ := hx
  rw [run_bind_of_run _ hrun]
  by_cases hrc : rc = 0
  · subst hrc
    obtain ⟨rc, s₂, hrun₂, hwrote₂⟩ := hy s₁ hrun hwrote
    exact ⟨rc, s₂, by simpa using hrun₂, hwrote.trans hwrote₂⟩
  · exact ⟨-1, s₁, by simp [hrc], hwrote.stop hrc⟩

theorem formatted_then {x y : Kernel ℤ}
    (hx : ∃ rc s₁, x.run s = some (rc, s₁) ∧ Wrote c d p plan s rc s₁)
    (hy : ∀ s₁, x.run s = some (0, s₁) → Wrote c d p plan s 0 s₁ →
      ∃ rc s₂, y.run s₁ = some (rc, s₂) ∧ Formatted c d p plan' s₁ rc s₂) :
    ∃ rc s₂, (do let rc ← x; if rc ≠ 0 then return -1 else y : Kernel ℤ).run s = some (rc, s₂) ∧
      Formatted c d p (plan ++ plan') s rc s₂ := by
  obtain ⟨rc, s₁, hrun, hwrote⟩ := hx
  rw [run_bind_of_run _ hrun]
  by_cases hrc : rc = 0
  · subst hrc
    obtain ⟨rc, s₂, hrun₂, hformat⟩ := hy s₁ hrun hwrote
    exact ⟨rc, s₂, by simpa using hrun₂, hwrote.then_formatted hformat⟩
  · exact ⟨-1, s₁, by simp [hrc], hwrote.formatted hrc⟩

end Composition

section Primitives

variable {s : Machine} {p : ℕ}

theorem run_failAndFree {m : Memory} (error : List PrintCall)
    (h : free s.poolBase s.memory p = some m) :
    (failAndFree p error).run s = some (-1, (s.print error).freed p m) := by
  rw [failAndFree, run_bind_of_run _ (run_console _ _)]
  rw [run_bind_of_run _ (run_kernelFree (s := s.print error) h)]
  rfl

@[simp] theorem run_memoryZero (a n : ℕ) (s : Machine) :
    (memoryZero a n).run s = some ((), s.bufferStore [(a, n)] (s.memory.fill a 0 n)) := rfl

@[simp] theorem run_memoryCopy (a : ℕ) (literal : List UInt8) (s : Machine) :
    (memoryCopy a literal).run s =
      some ((), s.bufferStore [(a, literal.length)] (s.memory.write a literal)) := rfl

theorem bufferStore_bufferStore (l l' : List (ℕ × ℕ)) (m m' : Memory) (s : Machine) :
    (s.bufferStore l m).bufferStore l' m' = s.bufferStore (l ++ l') m' := by
  simp [Machine.bufferStore]

@[simp] theorem run_storeFields {F : Type} [DecidableEq F] (L : Layout F) (a : ℕ)
    (vs : List (F × ℕ)) (s : Machine) :
    (storeFields L a vs).run s = some ((), s.bufferStore
      (vs.map fun v => (a + L.offset v.1, L.size v.1)) (L.setAll s.memory a vs)) := by
  induction vs generalizing s with
  | nil => simp [storeFields, Layout.setAll, Machine.bufferStore]
  | cons v vs ih =>
    rw [storeFields, run_bind_of_run _ (run_bufferWrite _ _ _ _), ih, bufferStore_bufferStore]
    rfl

variable {w : Memory}

/-- One sector of the plan. -/
theorem run_writeOrFree (j : Ext4Job) (lba : UInt32) (error : List PrintCall)
    (hfree : Freeable s j.diskBuffer) (hshow : s.memory.Shows j.diskBuffer 512 w) :
    ∃ rc s', (j.writeOrFree lba error).run s = some (rc, s') ∧
      Wrote j.controller j.drive j.diskBuffer [(lba, Sector.ofMemory w 0)] s rc s' := by
  have hsector : Sector.ofMemory s.memory j.diskBuffer = Sector.ofMemory w 0 := by
    funext i
    rw [Sector.ofMemory, Sector.ofMemory, hshow i.val i.isLt, Nat.zero_add]
  rw [Ext4Job.writeOrFree, run_bind_of_run _ (run_bufferRead _ _),
    run_bind_of_run _ (run_writeSector _ _ _ _ _ _)]
  by_cases hok : s.bus.next.ok
  · rw [if_pos hok, if_neg (by omega)]
    refine ⟨0, _, run_return _ _, ⟨?_, ?_, by simp, [], by simp⟩,
      fun _ => SameOutside.refl _ _ _, fun h => absurd rfl h⟩
    · simp [DiskState.writeAll, hok]
    · simp [DiskState.writeAll, hok, hsector]
  · obtain ⟨m, hm⟩ := hfree s.memory (SameOutside.refl _ _ _)
    have hm' : free (s.write j.controller j.drive lba
        (Sector.ofMemory s.memory j.diskBuffer)).poolBase s.memory j.diskBuffer = some m := by
      rw [Machine.poolBase_eq_of_config (Machine.config_write s _ _ _ _)]
      exact hm
    rw [if_neg hok, if_pos (by omega)]
    refine ⟨-1, _, run_failAndFree error hm', ⟨?_, ?_, by simp, [], by simp⟩,
      fun h => by omega, fun _ => ⟨s.memory, SameOutside.refl _ _ _, hm⟩⟩
    · simp [DiskState.writeAll, hok]
    · simp [DiskState.writeAll, hok, hsector]

/-- A write that succeeds does not touch the memory. -/
theorem writeOrFree_memory {j : Ext4Job} {lba : UInt32} {error : List PrintCall} {s' : Machine}
    (h : (j.writeOrFree lba error).run s = some (0, s')) : s'.memory = s.memory := by
  rw [Ext4Job.writeOrFree, run_bind_of_run _ (run_bufferRead _ _),
    run_bind_of_run _ (run_writeSector _ _ _ _ _ _)] at h
  by_cases hok : s.bus.next.ok
  · rw [if_pos hok, if_neg (by omega), run_return] at h
    obtain ⟨-, rfl⟩ := Prod.mk.inj (Option.some.inj h)
    rfl
  · rw [if_neg hok, if_pos (by omega), run_bind_of_run _ (run_console _ _)] at h
    obtain ⟨-, s₁, -, hreturn⟩ := run_bind_eq_some h
    have hrc := (Prod.mk.inj (Option.some.inj hreturn)).1
    omega

/-- One sector of the plan, after stores into the buffer. -/
theorem run_storeAndWrite (j : Ext4Job) (lba : UInt32) (error : List PrintCall)
    (l : List (ℕ × ℕ)) {m : Memory} (hfree : Freeable s j.diskBuffer)
    (hm : SameOutside m s.memory j.diskBuffer 512) (hshow : m.Shows j.diskBuffer 512 w) :
    ∃ rc s', (j.writeOrFree lba error).run (s.bufferStore l m) = some (rc, s') ∧
      Wrote j.controller j.drive j.diskBuffer [(lba, Sector.ofMemory w 0)] s rc s' := by
  obtain ⟨rc, s', hrun, hwrote⟩ := run_writeOrFree j lba error (hfree.bufferStore hm l) hshow
  exact ⟨rc, s', hrun, hwrote.after_store hm⟩

end Primitives

end EtyOS
