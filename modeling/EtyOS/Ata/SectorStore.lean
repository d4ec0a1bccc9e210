import EtyOS.Ata.DriverSpec
import EtyOS.Library.Simulation

/-!
# The driver as a sector store

What a sector holds is what the last successful write of it sent: a read gives
it out, and no operation on another sector touches it. Sectors are named by
controller, drive and 28-bit number. Every budget of status reads is covered:
a call that comes back at all comes back as it does with enough patience.
-/

namespace EtyOS

open Library PortProgram

section Budget

variable {budget budget' : ℕ}

theorem ataReadSectorDisk_extends (h : budget ≤ budget') (c d : Fin 2) (lba : UInt32)
    (buffer : ℕ) (m : Memory) :
    Extends Ports (Driver.ataReadSectorDisk budget c d lba buffer m)
      (Driver.ataReadSectorDisk budget' c d lba buffer m) := by
  unfold Driver.ataReadSectorDisk
  -- the six registers
  iterate 6
    apply Extends.bind (Extends.refl _)
    intro _
  apply Extends.bind (pollUntilClear_extends _ _ h)
  intro _
  exact Extends.refl _

theorem ataWriteSectorDisk_extends (h : budget ≤ budget') (c d : Fin 2) (lba : UInt32)
    (buffer : ℕ) (m : Memory) :
    Extends Ports (Driver.ataWriteSectorDisk budget c d lba buffer m)
      (Driver.ataWriteSectorDisk budget' c d lba buffer m) := by
  unfold Driver.ataWriteSectorDisk
  iterate 6
    apply Extends.bind (Extends.refl _)
    intro _
  apply Extends.bind (pollUntilClear_extends _ _ h)
  intro _
  apply Extends.bind (Extends.refl _)
  intro status
  apply Extends.ite (Extends.refl _)
  apply Extends.bind (Extends.refl _)
  intro _
  apply Extends.bind (pollUntilClear_extends _ _ h)
  intro _
  exact Extends.refl _

theorem identifyDrive_extends (h : budget ≤ budget') (c d : Fin 2) :
    Extends Ports (Driver.identifyDrive budget c d) (Driver.identifyDrive budget' c d) := by
  unfold Driver.identifyDrive
  apply Extends.bind (Extends.refl _)
  intro _
  apply Extends.bind (Extends.refl _)
  intro _
  apply Extends.bind (Extends.refl _)
  intro status
  apply Extends.ite (Extends.refl _)
  apply Extends.bind (pollUntilClear_extends _ _ h)
  intro _
  exact Extends.refl _

end Budget

section Calls

variable {c d : Fin 2} {lba : UInt32} {buffer : ℕ} {m : Memory} {budget : ℕ} {s s' : Ports}

/-- A call of `ata_read_sector_disk` that comes back does so as with enough patience. -/
theorem ataReadSectorDisk_value {r : (ℤ × Memory) × Ports}
    (hrun : (Driver.ataReadSectorDisk budget c d lba buffer m).run s = some r) :
    r = if s.bus.next.abort then
        ((-1, m), PortDevice.say "Error reading from disk." (s.afterRead c d lba))
      else
        ((0, (s.bus.media c d (deviceLba lba)).toMemory m buffer), s.afterRead c d lba) := by
  have henough :=
    ataReadSectorDisk_extends (le_max_left budget (s.bus.next.busy + 1)) c d lba buffer m s _ hrun
  have hspec := run_ataReadSectorDisk c d lba s
    (by omega : s.bus.next.busy < max budget (s.bus.next.busy + 1)) buffer m
  rw [henough, ← apply_ite some] at hspec
  exact Option.some.inj hspec

/-- What a call of `ata_read_sector_disk` that came back must have done. -/
theorem ataReadSectorDisk_returned {result : ℤ} {m' : Memory}
    (hrun : (Driver.ataReadSectorDisk budget c d lba buffer m).run s = some ((result, m'), s')) :
    s'.bus.media = s.bus.media ∧
      (result = 0 → m' = (s.bus.media c d (deviceLba lba)).toMemory m buffer) := by
  have hvalue := ataReadSectorDisk_value hrun
  split at hvalue
  · cases hvalue
    exact ⟨rfl, fun h => absurd h (by decide)⟩
  · cases hvalue
    exact ⟨rfl, fun _ => rfl⟩

/-- A call of `ata_write_sector_disk` that comes back does so as with enough patience. -/
theorem ataWriteSectorDisk_value {r : ℤ × Ports}
    (hrun : (Driver.ataWriteSectorDisk budget c d lba buffer m).run s = some r) :
    r = if s.bus.next.abort then
        (-1, PortDevice.say "Error: Disk reported an error before writing."
          (s.afterWrite c d lba (Sector.ofMemory m buffer)))
      else if s.bus.next.failed then
        (-1, PortDevice.say "Error: Disk reported an error after writing."
          (s.afterWrite c d lba (Sector.ofMemory m buffer)))
      else (0, s.afterWrite c d lba (Sector.ofMemory m buffer)) := by
  set enough := max budget (s.bus.next.busy + s.bus.next.busyAfter + 1)
  have henough :=
    ataWriteSectorDisk_extends (le_max_left budget _ : budget ≤ enough) c d lba buffer m s _ hrun
  have hspec := run_ataWriteSectorDisk c d lba s (by omega : s.bus.next.busy < enough)
    (by omega : s.bus.next.busyAfter < enough) buffer m
  rw [henough] at hspec
  dsimp only at hspec
  rw [← apply_ite some, ← apply_ite some] at hspec
  exact Option.some.inj hspec

/-- What a call of `ata_write_sector_disk` that came back must have done. -/
theorem ataWriteSectorDisk_returned {result : ℤ}
    (hrun : (Driver.ataWriteSectorDisk budget c d lba buffer m).run s = some (result, s')) :
    s'.bus.media = (s.afterWrite c d lba (Sector.ofMemory m buffer)).bus.media ∧
      (result = 0 → s'.bus.media c d (deviceLba lba) = Sector.ofMemory m buffer) := by
  have hvalue := ataWriteSectorDisk_value hrun
  by_cases habort : s.bus.next.abort = true
  · rw [if_pos habort] at hvalue
    cases hvalue
    exact ⟨rfl, fun h => absurd h (by decide)⟩
  · rw [if_neg habort] at hvalue
    by_cases hfailed : s.bus.next.failed = true
    · rw [if_pos hfailed] at hvalue
      cases hvalue
      exact ⟨rfl, fun h => absurd h (by decide)⟩
    · rw [if_neg hfailed] at hvalue
      cases hvalue
      constructor
      · rfl
      · intro _
        rw [Ports.afterWrite_media, if_pos (by simp [habort, hfailed]), Function.update_self,
          Function.update_self, Function.update_self]

/-- The results of the two routines are 0 and -1. -/
theorem ataReadSectorDisk_result {result : ℤ} {m' : Memory}
    (hrun : (Driver.ataReadSectorDisk budget c d lba buffer m).run s = some ((result, m'), s')) :
    result = -1 ∨ result = 0 := by
  have hvalue := ataReadSectorDisk_value hrun
  split at hvalue
  · cases hvalue
    exact Or.inl rfl
  · cases hvalue
    exact Or.inr rfl

theorem ataWriteSectorDisk_result {result : ℤ}
    (hrun : (Driver.ataWriteSectorDisk budget c d lba buffer m).run s = some (result, s')) :
    result = -1 ∨ result = 0 := by
  have hvalue := ataWriteSectorDisk_value hrun
  split at hvalue
  · cases hvalue
    exact Or.inl rfl
  · split at hvalue
    · cases hvalue
      exact Or.inl rfl
    · cases hvalue
      exact Or.inr rfl

/-- An IDENTIFY exchange that comes back does so as with enough patience. -/
theorem identifyDrive_value {r : Option (ℕ → UInt16) × Ports}
    (hrun : (Driver.identifyDrive budget c d).run s = some r) :
    r = ((s.bus.identify s.bus.scanned).map (fun a => identifyBuffer a.word),
      s.afterIdentify c d) := by
  set enough := max budget s.patience
  have henough := identifyDrive_extends (le_max_left budget _ : budget ≤ enough) c d s _ hrun
  have hpatience : ∀ a, s.bus.identify s.bus.scanned = some a → a.busy < enough := by
    intro a ha
    have hle : s.patience ≤ enough := le_max_right _ _
    rw [Ports.patience, ha] at hle
    simp only at hle
    omega
  have hspec := run_identifyDrive c d s hpatience
  rw [henough] at hspec
  exact Option.some.inj hspec

/-- IDENTIFY stores nothing. -/
theorem identifyDrive_returned {answer : Option (ℕ → UInt16)}
    (hrun : (Driver.identifyDrive budget c d).run s = some (answer, s')) :
    s'.bus.media = s.bus.media := by
  cases identifyDrive_value hrun
  rfl

end Calls

/-- A call of one of the driver's routines, with the memory at that moment. -/
inductive DriverOp where
  | readSectorDisk (budget : ℕ) (controller drive : Fin 2) (lba : UInt32) (buffer : ℕ) (m : Memory)
  | writeSectorDisk (budget : ℕ) (controller drive : Fin 2) (lba : UInt32) (buffer : ℕ) (m : Memory)
  | readSector (budget : ℕ) (lba : UInt32) (buffer : ℕ) (m : Memory)
  | writeSector (budget : ℕ) (lba : UInt32) (buffer : ℕ) (m : Memory)
  | identifyDrive (budget : ℕ) (controller drive : Fin 2)

namespace DriverOp

/-- The state the call leaves, when it comes back. -/
def exec : DriverOp → StateT Ports Option Unit
  | readSectorDisk budget c d lba buffer m =>
    fun s => ((Driver.ataReadSectorDisk budget c d lba buffer m).run s).map fun r => ((), r.2)
  | writeSectorDisk budget c d lba buffer m =>
    fun s => ((Driver.ataWriteSectorDisk budget c d lba buffer m).run s).map fun r => ((), r.2)
  | readSector budget lba buffer m =>
    fun s => ((Driver.ataReadSector budget lba buffer m).run s).map fun r => ((), r.2)
  | writeSector budget lba buffer m =>
    fun s => ((Driver.ataWriteSector budget lba buffer m).run s).map fun r => ((), r.2)
  | identifyDrive budget c d =>
    fun s => ((Driver.identifyDrive budget c d).run s).map fun r => ((), r.2)

/-- The sector a call writes. -/
def target : DriverOp → Option (Fin 2 × Fin 2 × ℕ)
  | writeSectorDisk _ c d lba _ _ => some (c, d, deviceLba lba)
  | writeSector _ lba _ _ => some (0, 0, deviceLba lba)
  | _ => none

section Step

variable {s s' : Ports} {u : Unit} {budget : ℕ} {c d : Fin 2} {lba : UInt32} {buffer : ℕ}
  {m : Memory}

theorem exec_readSectorDisk
    (hexec : (readSectorDisk budget c d lba buffer m).exec.run s = some (u, s')) :
    s'.bus.media = s.bus.media := by
  obtain ⟨⟨⟨result, m'⟩, s₁⟩, hrun, heq⟩ := Option.map_eq_some_iff.mp hexec
  cases heq
  exact (ataReadSectorDisk_returned hrun).1

theorem exec_writeSectorDisk
    (hexec : (writeSectorDisk budget c d lba buffer m).exec.run s = some (u, s')) {c' d' : Fin 2}
    {a : ℕ} (hother : (c', d', a) ≠ (c, d, deviceLba lba)) :
    s'.bus.media c' d' a = s.bus.media c' d' a := by
  obtain ⟨⟨result, s₁⟩, hrun, heq⟩ := Option.map_eq_some_iff.mp hexec
  cases heq
  rw [(ataWriteSectorDisk_returned hrun).1, Ports.afterWrite_other _ _ _ _ _ hother]

/-- The legacy routines are the others at the primary master. -/
theorem exec_readSector (budget : ℕ) (lba : UInt32) (buffer : ℕ) (m : Memory) :
    (readSector budget lba buffer m).exec = (readSectorDisk budget 0 0 lba buffer m).exec := by
  funext s
  change Option.map _ ((Driver.ataReadSector budget lba buffer m).run s) = _
  rw [ataReadSector_eq]
  rfl

theorem exec_writeSector (budget : ℕ) (lba : UInt32) (buffer : ℕ) (m : Memory) :
    (writeSector budget lba buffer m).exec = (writeSectorDisk budget 0 0 lba buffer m).exec := by
  funext s
  change Option.map _ ((Driver.ataWriteSector budget lba buffer m).run s) = _
  rw [ataWriteSector_eq]
  rfl

/-- A call leaves every sector alone but the one it writes. -/
theorem exec_other {op : DriverOp} {a : ℕ} (hexec : op.exec.run s = some (u, s'))
    (htarget : op.target ≠ some (c, d, a)) : s'.bus.media c d a = s.bus.media c d a := by
  have hother : ∀ place, op.target = some place → (c, d, a) ≠ place := by
    intro place hplace heq
    exact htarget (hplace.trans (congrArg some heq.symm))
  cases op with
  | readSectorDisk budget c' d' lba buffer m => rw [exec_readSectorDisk hexec]
  | writeSectorDisk budget c' d' lba buffer m => exact exec_writeSectorDisk hexec (hother _ rfl)
  | readSector budget lba buffer m =>
    rw [exec_readSector] at hexec
    rw [exec_readSectorDisk hexec]
  | writeSector budget lba buffer m =>
    rw [exec_writeSector] at hexec
    exact exec_writeSectorDisk hexec (hother _ rfl)
  | identifyDrive budget c' d' =>
    obtain ⟨⟨answer, s₁⟩, hrun, heq⟩ := Option.map_eq_some_iff.mp hexec
    cases heq
    rw [identifyDrive_returned hrun]

end Step

/-- So does a run of calls none of which writes the sector. -/
theorem run_other {ops : List DriverOp} {s s' : Ports} {c d : Fin 2} {a : ℕ}
    (hrun : Run exec (fun _ op => op.target ≠ some (c, d, a)) s ops s') :
    s'.bus.media c d a = s.bus.media c d a := by
  refine Run.invariant (I := fun t => t.bus.media c d a = s.bus.media c d a) ?_ rfl hrun
  intro s₁ s₂ op u hs₁ htarget hexec
  rw [exec_other hexec htarget, hs₁]

end DriverOp

section Patience

variable (c d : Fin 2) (lba : UInt32) (buffer : ℕ) (m : Memory) (s : Ports)

theorem ataReadSectorDisk_returns :
    ∃ r, (Driver.ataReadSectorDisk s.patience c d lba buffer m).run s = some r := by
  have hbusy : s.bus.next.busy < s.patience := by
    unfold Ports.patience
    omega
  rw [run_ataReadSectorDisk c d lba s hbusy]
  split
  · exact ⟨_, rfl⟩
  · exact ⟨_, rfl⟩

theorem ataWriteSectorDisk_returns :
    ∃ r, (Driver.ataWriteSectorDisk s.patience c d lba buffer m).run s = some r := by
  have hbusy : s.bus.next.busy < s.patience ∧ s.bus.next.busyAfter < s.patience := by
    unfold Ports.patience
    omega
  rw [run_ataWriteSectorDisk c d lba s hbusy.1 hbusy.2]
  simp only
  split
  · exact ⟨_, rfl⟩
  · split
    · exact ⟨_, rfl⟩
    · exact ⟨_, rfl⟩

end Patience

/-- Write and read come back, whatever the drive answers. A write changes no
sector with another controller, drive or number, and when it succeeds every
later successful read gives out its 512 bytes, as long as nothing has written
the sector in between. -/
theorem sector_store (c d : Fin 2) {lba : UInt32} (hlba : lba.toNat < 2 ^ 28) (buf : ℕ)
    (m : Memory) :
    (∀ s : Ports, ∃ r, (Driver.ataWriteSectorDisk s.patience c d lba buf m).run s = some r) ∧
    (∀ s : Ports, ∃ r, (Driver.ataReadSectorDisk s.patience c d lba buf m).run s = some r) ∧
    ∀ (budget : ℕ) (s s₁ : Ports) (result : ℤ),
      (Driver.ataWriteSectorDisk budget c d lba buf m).run s = some (result, s₁) →
      (∀ c' d' a, (c', d', a) ≠ (c, d, lba.toNat) →
        s₁.bus.media c' d' a = s.bus.media c' d' a) ∧
      (result = 0 → ∀ ops s₂,
        Run DriverOp.exec (fun _ op => op.target ≠ some (c, d, lba.toNat)) s₁ ops s₂ →
        ∀ budget' out m' m'' s₃,
          (Driver.ataReadSectorDisk budget' c d lba out m').run s₂ = some ((0, m''), s₃) →
          ∀ i < 512, m'' (out + i) = m (buf + i)) := by
  have hdevice : deviceLba lba = lba.toNat := Nat.mod_eq_of_lt hlba
  refine ⟨ataWriteSectorDisk_returns c d lba buf m, ataReadSectorDisk_returns c d lba buf m, ?_⟩
  intro budget s s₁ result hwrite
  obtain ⟨hmedia, hstored⟩ := ataWriteSectorDisk_returned hwrite
  constructor
  · intro c' d' a hother
    rw [hmedia, Ports.afterWrite_other]
    rwa [hdevice]
  · intro hresult ops s₂ hrun budget' out m' m'' s₃ hread i hi
    have hkept := DriverOp.run_other hrun
    rw [← hdevice, hstored hresult] at hkept
    have hread := (ataReadSectorDisk_returned hread).2 rfl
    rw [hread, hkept, Sector.toMemory, dif_pos (by omega : out ≤ out + i ∧ out + i < out + 512)]
    exact congrArg (fun j => m (buf + j)) (Nat.add_sub_cancel_left out i)

/-- Four blank drives that do what they are told at once. -/
def blankPorts : Ports where
  bus :=
    { channel := fun _ =>
        { select := 0, low := 0, mid := 0, high := 0, busy := 0, phase := .idle }
      media := fun _ _ _ => blankSector
      answers := fun _ => promptAnswer
      issued := 0
      identify := fun _ => none
      scanned := 0 }
  printed := []

theorem sector_store_blank :
    let m : Memory := fun a => UInt8.ofNat a
    ∃ s₁ s₂ s₃ m'',
      (Driver.ataWriteSectorDisk 1 1 0 5 0 m).run blankPorts = some (0, s₁) ∧
      Run DriverOp.exec (fun _ op => op.target ≠ some (1, 0, 5)) s₁
        [.writeSector 1 6 512 m] s₂ ∧
      (Driver.ataReadSectorDisk 1 1 0 5 0 (fun _ => 0)).run s₂ = some ((0, m''), s₃) ∧
      ∀ i < 512, m'' (0 + i) = m (0 + i) := by
  intro m
  have hwrite := run_ataWriteSectorDisk 1 0 5 blankPorts (by decide : 0 < 1) (by decide : 0 < 1) 0 m
  set s₁ := blankPorts.afterWrite 1 0 5 (Sector.ofMemory m 0)
  have hnext : (DriverOp.writeSector 1 6 512 m).exec.run s₁ =
      some ((), s₁.afterWrite 0 0 6 (Sector.ofMemory m 512)) := by
    have hrun := run_ataWriteSectorDisk 0 0 6 s₁ (by decide : 0 < 1) (by decide : 0 < 1) 512 m
    exact congrArg (Option.map fun r => ((), r.2)) hrun
  set s₂ := s₁.afterWrite 0 0 6 (Sector.ofMemory m 512)
  have hread := run_ataReadSectorDisk 1 0 5 s₂ (by decide : 0 < 1) 0 (fun _ => 0)
  have hrun : Run DriverOp.exec (fun _ op => op.target ≠ some (1, 0, 5)) s₁
      ([] ++ [.writeSector 1 6 512 m]) s₂ := .snoc .nil (by decide) hnext
  have hstore := (sector_store 1 0 (by decide : (5 : UInt32).toNat < 2 ^ 28) 0 m).2.2
  exact ⟨s₁, s₂, _, _, hwrite, hrun, hread,
    (hstore 1 blankPorts s₁ 0 hwrite).2 rfl _ s₂ hrun 1 0 _ _ _ hread⟩

end EtyOS
