import EtyOS.Ata.SectorStore

/-!
# Which sector a sector number reaches

The drivers put the low 28 bits of a 32-bit sector number into the registers
and do not look at the other four. Every routine reaches exactly one sector,
`deviceLba lba`, and it is the one that was asked for when no bit was lost.
-/

namespace EtyOS

open Library PortProgram

/-- The read routine comes back on every state of the device, and it gives out
sector `n` of the drive or returns -1. -/
def ReadsSector (read : ℕ → ℕ → Memory → PortProgram (ℤ × Memory)) (c d : Fin 2) (n : ℕ) : Prop :=
  ∀ (buffer : ℕ) (m : Memory) (s : Ports), (∃ r, (read s.patience buffer m).run s = some r) ∧
    ∀ budget result m' s', (read budget buffer m).run s = some ((result, m'), s') →
      result = -1 ∨ m' = (s.bus.media c d n).toMemory m buffer ∧ s'.bus.media = s.bus.media

/-- The write routine comes back on every state of the device, and it stores
the buffer in sector `n` of the drive and nowhere else or returns -1. -/
def WritesSector (write : ℕ → ℕ → Memory → PortProgram ℤ) (c d : Fin 2) (n : ℕ) : Prop :=
  ∀ (buffer : ℕ) (m : Memory) (s : Ports), (∃ r, (write s.patience buffer m).run s = some r) ∧
    ∀ budget result s', (write budget buffer m).run s = some (result, s') →
      result = -1 ∨ s'.bus.media c d n = Sector.ofMemory m buffer ∧
        ∀ c' d' a, (c', d', a) ≠ (c, d, n) → s'.bus.media c' d' a = s.bus.media c' d' a

section Reached

variable {c d : Fin 2} {lba lba' : UInt32} {n : ℕ}

theorem deviceLba_eq_iff : lba.toNat = deviceLba lba ↔ lba.toNat < 2 ^ 28 := by
  unfold deviceLba
  constructor
  · intro heq
    rw [heq]
    exact Nat.mod_lt _ (by decide)
  · intro hlt
    exact (Nat.mod_eq_of_lt hlt).symm

/-- Four drives on which sector `n` is full of ones and every other sector blank. -/
def markedPorts (n : ℕ) : Ports :=
  { blankPorts with
    bus := { blankPorts.bus with media := fun _ _ a => if a = n then fun _ => 1 else blankSector } }

/-- The read routine reaches the sector of the low 28 bits and no other. -/
theorem readsSector_iff :
    ReadsSector (fun budget => Driver.ataReadSectorDisk budget c d lba) c d n ↔
      n = deviceLba lba := by
  constructor
  · intro hreads
    by_contra hne
    obtain ⟨-, hread⟩ := hreads 0 (fun _ => 0) (markedPorts n)
    have hrun := run_ataReadSectorDisk c d lba (markedPorts n) (by decide : 0 < 1) 0 (fun _ => 0)
    rcases hread 1 _ _ _ hrun with hfail | ⟨hmemory, -⟩
    · exact absurd hfail (by decide)
    · have hbyte := congrFun hmemory 0
      simp [Sector.toMemory, markedPorts, blankSector, Ne.symm hne] at hbyte
  · rintro rfl buffer m s
    refine ⟨ataReadSectorDisk_returns c d lba buffer m s, fun budget result m' s' hrun => ?_⟩
    obtain ⟨hmedia, hmemory⟩ := ataReadSectorDisk_returned hrun
    exact (ataReadSectorDisk_result hrun).imp_right fun hzero => ⟨hmemory hzero, hmedia⟩

/-- So does the write routine. -/
theorem writesSector_iff :
    WritesSector (fun budget => Driver.ataWriteSectorDisk budget c d lba) c d n ↔
      n = deviceLba lba := by
  constructor
  · intro hwrites
    by_contra hne
    obtain ⟨-, hwrite⟩ := hwrites 0 (fun _ => 1) blankPorts
    have hrun := run_ataWriteSectorDisk c d lba blankPorts (by decide : 0 < 1)
      (by decide : 0 < 1) 0 (fun _ => 1)
    rcases hwrite 1 _ _ hrun with hfail | ⟨hstored, -⟩
    · exact absurd hfail (by decide)
    · rw [Ports.afterWrite_other _ _ _ _ _ (by simp [hne])] at hstored
      exact absurd (congrFun hstored 0) (by simp [blankPorts, blankSector, Sector.ofMemory])
  · rintro rfl buffer m s
    refine ⟨ataWriteSectorDisk_returns c d lba buffer m s, fun budget result s' hrun => ?_⟩
    obtain ⟨hmedia, hstored⟩ := ataWriteSectorDisk_returned hrun
    refine (ataWriteSectorDisk_result hrun).imp_right fun hzero => ⟨hstored hzero, ?_⟩
    intro c' d' a hother
    rw [hmedia, Ports.afterWrite_other _ _ _ _ _ hother]

end Reached

/-- A routine returns -1 or accesses the sector of the number it is given
exactly when the number has 28 bits, and no two such numbers reach one sector. -/
theorem sector_addressing_iff (c d : Fin 2) (lba : UInt32) :
    (ReadsSector (fun budget => Driver.ataReadSector budget lba) 0 0 lba.toNat ↔
      lba.toNat < 2 ^ 28) ∧
    (ReadsSector (fun budget => Driver.ataReadSectorDisk budget c d lba) c d lba.toNat ↔
      lba.toNat < 2 ^ 28) ∧
    (WritesSector (fun budget => Driver.ataWriteSectorDisk budget c d lba) c d lba.toNat ↔
      lba.toNat < 2 ^ 28) ∧
    ∀ (lba' : UInt32) (n : ℕ), lba.toNat < 2 ^ 28 → lba'.toNat < 2 ^ 28 →
      ReadsSector (fun budget => Driver.ataReadSectorDisk budget c d lba) c d n ∨
        WritesSector (fun budget => Driver.ataWriteSectorDisk budget c d lba) c d n →
      ReadsSector (fun budget => Driver.ataReadSectorDisk budget c d lba') c d n ∨
        WritesSector (fun budget => Driver.ataWriteSectorDisk budget c d lba') c d n →
      lba = lba' := by
  refine ⟨?_, ?_, ?_, ?_⟩
  · exact (readsSector_iff (c := 0) (d := 0)).trans deviceLba_eq_iff
  · exact readsSector_iff.trans deviceLba_eq_iff
  · exact writesSector_iff.trans deviceLba_eq_iff
  · intro lba' n hlba hlba' haccess haccess'
    have hsector : n = deviceLba lba := haccess.elim readsSector_iff.mp writesSector_iff.mp
    have hsector' : n = deviceLba lba' := haccess'.elim readsSector_iff.mp writesSector_iff.mp
    apply UInt32.toNat_inj.mp
    rw [deviceLba_eq_iff.mpr hlba, deviceLba_eq_iff.mpr hlba', ← hsector, ← hsector']

/-- Sector number 2^28 is sector 0: the read succeeds and gives out what
sector 0 holds, and so does the read of sector 0 itself. -/
theorem sector_addressing_wraps :
    ∃ s₁ s₂ m₁ m₂,
      (Driver.ataReadSectorDisk 1 0 0 0x10000000 0 fun _ => 0).run (markedPorts 0) =
        some ((0, m₁), s₁) ∧
      (Driver.ataReadSectorDisk 1 0 0 0 0 fun _ => 0).run (markedPorts 0) = some ((0, m₂), s₂) ∧
      m₁ = ((markedPorts 0).bus.media 0 0 0).toMemory (fun _ => 0) 0 ∧ m₁ = m₂ ∧
      m₁ ≠ ((markedPorts 0).bus.media 0 0 0x10000000).toMemory (fun _ => 0) 0 := by
  have hhigh := run_ataReadSectorDisk 0 0 0x10000000 (markedPorts 0) (by decide : 0 < 1) 0 fun _ => 0
  have hzero := run_ataReadSectorDisk 0 0 0 (markedPorts 0) (by decide : 0 < 1) 0 fun _ => 0
  refine ⟨_, _, _, _, hhigh, hzero, rfl, rfl, fun heq => ?_⟩
  have hbyte := congrFun heq 0
  simp [Sector.toMemory, markedPorts, blankSector, deviceLba] at hbyte

end EtyOS
