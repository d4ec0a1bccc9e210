import EtyOS.Library.PortTrace
import EtyOS.Ata.DriverSpec

/-!
# The two copies of the sector routines

`filesystem.c` has each sector routine twice, for the primary master and for any
drive. The copies are compared access by access, for every sequence of responses,
whatever device they come from.
-/

namespace EtyOS

open Library PortProgram

theorem unstuck_ataReadSectorDisk {n budget : ℕ} (h : n < budget) (c d : Fin 2) (lba : UInt32)
    (buffer : ℕ) (m : Memory) :
    Unstuck n (Driver.ataReadSectorDisk budget c d lba buffer m) := by
  refine (unstuck_writeByte _ _).bind fun _ => (unstuck_writeByte _ _).bind fun _ => ?_
  refine (unstuck_writeByte _ _).bind fun _ => (unstuck_writeByte _ _).bind fun _ => ?_
  refine (unstuck_writeByte _ _).bind fun _ => (unstuck_writeByte _ _).bind fun _ => ?_
  refine (unstuck_pollUntilClear _ _ h).bind fun _ => (unstuck_readByte _).bind fun _ => ?_
  refine Unstuck.ite ((unstuck_emit _).bind fun _ => unstuck_ret _) ?_
  refine (unstuck_forRange (fun _ _ => ?_) _ _ _).bind fun _ => unstuck_ret _
  exact (unstuck_readWord _).bind fun _ => unstuck_ret _

theorem unstuck_ataWriteSectorDisk {n budget : ℕ} (h : n < budget) (c d : Fin 2) (lba : UInt32)
    (buffer : ℕ) (m : Memory) :
    Unstuck n (Driver.ataWriteSectorDisk budget c d lba buffer m) := by
  refine (unstuck_writeByte _ _).bind fun _ => (unstuck_writeByte _ _).bind fun _ => ?_
  refine (unstuck_writeByte _ _).bind fun _ => (unstuck_writeByte _ _).bind fun _ => ?_
  refine (unstuck_writeByte _ _).bind fun _ => (unstuck_writeByte _ _).bind fun _ => ?_
  refine (unstuck_pollUntilClear _ _ h).bind fun _ => (unstuck_readByte _).bind fun _ => ?_
  refine Unstuck.ite ((unstuck_emit _).bind fun _ => unstuck_ret _) ?_
  refine (unstuck_forRange (fun _ _ => unstuck_writeWord _ _) _ _ _).bind fun _ => ?_
  refine (unstuck_pollUntilClear _ _ h).bind fun _ => (unstuck_readByte _).bind fun _ => ?_
  exact Unstuck.ite ((unstuck_emit _).bind fun _ => unstuck_ret _) (unstuck_ret _)

/-- With the same responses the two copies of a routine make the same accesses, wait
for the same port or return the same value and buffer; and polling loops that may
read the status more often than there are responses never end for another reason. -/
theorem legacy_routines_agree (lba : UInt32) (buffer : ℕ) (m : Memory)
    (responses : List UInt16) :
    (∀ budget,
      (Driver.ataReadSector budget lba buffer m).exchange responses =
          (Driver.ataReadSectorDisk budget 0 0 lba buffer m).exchange responses ∧
        (Driver.ataWriteSector budget lba buffer m).exchange responses =
          (Driver.ataWriteSectorDisk budget 0 0 lba buffer m).exchange responses) ∧
      ∀ budget, responses.length < budget →
        ((Driver.ataReadSector budget lba buffer m).exchange responses).2 ≠ .stuck ∧
          ((Driver.ataWriteSector budget lba buffer m).exchange responses).2 ≠ .stuck := by
  constructor
  · intro budget
    rw [ataReadSector_eq, ataWriteSector_eq]
    exact ⟨rfl, rfl⟩
  · intro budget hbudget
    rw [ataReadSector_eq, ataWriteSector_eq]
    exact ⟨unstuck_ataReadSectorDisk hbudget _ _ _ _ _ _ le_rfl,
      unstuck_ataWriteSectorDisk hbudget _ _ _ _ _ _ le_rfl⟩

end EtyOS
