import EtyOS.Partition.MbrTable
import EtyOS.Partition.Sectors

/-!
# Which sectors a creation touches

Every partition is created at sector 2048. From there on neither formatter
reaches sector 0, whatever the size, so the table after a creation is decided
by the one write of the MBR.
-/

namespace EtyOS

open Library

section Plans

variable (totalSectors : UInt32)

/-- A sector number from 2048 on that the device does not cut. -/
def BehindMbr (lba : UInt32) : Prop := 2048 ≤ lba.toNat ∧ lba.toNat < 2 ^ 28

instance (lba : UInt32) : Decidable (BehindMbr lba) := inferInstanceAs (Decidable (_ ∧ _))

theorem BehindMbr.deviceLba_ne_zero {lba : UInt32} (h : BehindMbr lba) : deviceLba lba ≠ 0 := by
  obtain ⟨hlow, hhigh⟩ := h
  rw [deviceLba, Nat.mod_eq_of_lt hhigh]
  omega

theorem ext4Plan_behindMbr {w : UInt32 × Sector} (hw : w ∈ ext4Plan 2048 totalSectors) :
    BehindMbr w.1 := by
  have hlt := totalSectors.toNat_lt
  have hsector : w.1.toNat ∈ (ext4Plan 2048 totalSectors).map fun w => w.1.toNat :=
    List.mem_map_of_mem (f := fun w : UInt32 × Sector => w.1.toNat) hw
  rw [ext4Plan_sectors] at hsector
  obtain ⟨o, ho, hlba⟩ := List.mem_map.mp hsector
  change (2048 + o) % 2 ^ 32 = w.1.toNat at hlba
  unfold BehindMbr
  rcases mem_ext4Offsets ho with rfl | ⟨g, hg, ho⟩
  · omega
  · unfold groupsOf at hg
    omega

theorem fat32Plan_behindMbr {w : UInt32 × Sector} (hw : w ∈ fat32Plan 2048 totalSectors) :
    BehindMbr w.1 := by
  have hsector : w.1.toNat ∈ (fat32Plan 2048 totalSectors).map fun w => w.1.toNat :=
    List.mem_map_of_mem (f := fun w : UInt32 × Sector => w.1.toNat) hw
  rw [fat32Plan_sectors] at hsector
  obtain ⟨o, ho, hlba⟩ := List.mem_map.mp hsector
  change (2048 + o) % 2 ^ 32 = w.1.toNat at hlba
  simp only [fat32Offsets, List.mem_cons, List.not_mem_nil, or_false] at ho
  unfold BehindMbr
  omega

end Plans

namespace DiskState

variable (fs : FileSystemType) (c d : Fin 2) (n : UInt32) (k : DiskState)

/-- A formatter that starts at 2048 changes neither another disk nor sector 0. -/
theorem formatter_media {c' d' : Fin 2} {a : ℕ} (h : ¬(c' = c ∧ d' = d) ∨ a = 0) :
    (k.formatter fs c d 2048 n).2.media c' d' a = k.media c' d' a := by
  have hplan : ∀ plan : List (UInt32 × Sector), (∀ w ∈ plan, BehindMbr w.1) →
      ∀ k' : DiskState, (k'.writeAll c d plan).2.media c' d' a = k'.media c' d' a :=
    fun plan hbehind k' => writeAll_media_of_ne plan fun w hw hhit => by
      have hne := (hbehind w hw).deviceLba_ne_zero
      obtain ⟨hc, hd, ha⟩ := hhit
      exact h.elim (fun h => h ⟨hc, hd⟩) fun h => hne (ha.symm.trans h)
  cases fs with
  | fat32 => exact hplan _ (fun w hw => fat32Plan_behindMbr n hw) k
  | ext4 =>
    simp only [formatter, formatExt4]
    split
    · rfl
    · split
      · rfl
      · exact (hplan _ (fun w hw => ext4Plan_behindMbr n hw) _).trans (by rfl)

theorem format_media {c' d' : Fin 2} {a : ℕ} (h : ¬(c' = c ∧ d' = d) ∨ a = 0) :
    (k.format fs c d 2048 n).media c' d' a = k.media c' d' a := by
  rw [format, log_media, formatter_media fs c d n k h]

/-- A creation leaves the other disks alone. -/
theorem create_media_other {c' d' : Fin 2} (h : ¬(c' = c ∧ d' = d)) (a : ℕ) :
    (k.create fs c d 2048 n).media c' d' a = k.media c' d' a := by
  have hmbr : ∀ x, ((k.read c d 0).write c d 0 x).media c' d' a = k.media c' d' a := fun x =>
    write_media_of_ne _ _ _ _ _ fun hhit => h ⟨hhit.1, hhit.2.1⟩
  unfold create
  split
  · rfl
  · split
    · rfl
    · dsimp only
      split
      · rw [format_media fs c d n _ (Or.inl h), hmbr]
      · exact hmbr _

theorem create_answers : (k.create fs c d 2048 n).answers = k.answers := by
  have hformat : ∀ k' : DiskState, (k'.format fs c d 2048 n).answers = k'.answers := by
    intro k'
    rw [format, log_answers]
    cases fs with
    | fat32 => exact writeAll_answers _
    | ext4 =>
      simp only [formatter, formatExt4]
      split
      · rfl
      · split
        · rfl
        · exact (writeAll_answers _).trans rfl
  unfold create
  split
  · rfl
  · split
    · rfl
    · dsimp only
      split
      · rw [hformat, write_answers, read_answers]
      · rfl

/-- The slot that a creation fills, if its write of the MBR is stored. -/
def filledSlot : Option ℕ :=
  if k.next.abort then none
  else if (k.read c d 0).stores then (k.media c d 0).freeSlot else none

/-- A creation changes sector 0 of its disk by filling one slot or not at all. -/
theorem create_sector_zero :
    (k.create fs c d 2048 n).media c d 0 =
      match k.filledSlot c d with
      | none => k.media c d 0
      | some i => (k.media c d 0).fillSlot i fs.code 2048 n := by
  unfold create filledSlot
  by_cases habort : k.next.abort = true
  · simp [habort]
  · cases hslot : (k.media c d 0).freeSlot with
    | none => simp [habort]
    | some i =>
      have hformat : ∀ k' : DiskState, (k'.format fs c d 2048 n).media c d 0 = k'.media c d 0 :=
        fun k' => format_media fs c d n k' (Or.inr rfl)
      by_cases hstores : (k.read c d 0).stores
      · have hsame := write_media_same (k.read c d 0) c d 0
          ((k.media c d 0).fillSlot i fs.code 2048 n) hstores
        rw [deviceLba_zero] at hsame
        simp only [habort, Bool.false_eq_true, if_false, hstores, if_true]
        split
        · rw [hformat, hsame]
        · exact hsame
      · have hnot : ¬(k.read c d 0).next.ok := fun h => hstores (stores_of_ok _ h)
        simp [habort, hstores, hnot, write]

/-- Without a free slot nothing is written. -/
theorem create_media_of_full (hslot : (k.media c d 0).freeSlot = none) :
    (k.create fs c d 2048 n).media = k.media := by
  unfold create
  split
  · rfl
  · rw [hslot]
    rfl

/-- When the MBR is read and its write is stored, the table gets the new entry. -/
theorem create_table (hread : k.next.abort = false) (hstores : (k.read c d 0).stores) :
    ((k.create fs c d 2048 n).media c d 0).table =
      (k.media c d 0).table.create fs.code.toNat 2048 n.toNat := by
  have hzero := k.create_sector_zero fs c d n
  have hslot : k.filledSlot c d = ((k.media c d 0).table.freeSlot).map Fin.val := by
    rw [filledSlot, hread, if_neg (by simp), if_pos hstores, freeSlot_eq]
  rw [hzero, hslot, MbrTable.create]
  cases (k.media c d 0).table.freeSlot with
  | none => rfl
  | some i => exact table_fillSlot (k.media c d 0) i fs.code 2048 n

end DiskState

end EtyOS
