import EtyOS.Partition.Requests

/-!
# The bytes of a volume

A volume is read through the driver, sector after sector from its start. Which
bytes a formatter leaves there follows from its plan: a sector that is written
holds what the last write put into it.
-/

namespace EtyOS

open Library

section Bytes

/-- The bytes of the volume at `startLba`, as the driver reads them. -/
def volume (media : ℕ → Sector) (startLba : UInt32) : Memory := fun a =>
  media (deviceLba (UInt32.ofNat (startLba.toNat + a / 512)))
    ⟨a % 512, Nat.mod_lt _ (by decide)⟩

variable {media : ℕ → Sector} {startLba : UInt32}

theorem deviceLba_ofNat (n : ℕ) : deviceLba (UInt32.ofNat n) = n % 2 ^ 28 := by
  rw [deviceLba, UInt32.toNat_ofNat']
  omega

/-- The drive sees the offset of a sector as the driver computes it. -/
theorem deviceLba_of_toNat {lba : UInt32} {o : ℕ}
    (hsector : lba.toNat = (startLba.toNat + o) % 2 ^ 32) :
    deviceLba lba = (startLba.toNat + o) % 2 ^ 28 := by
  rw [deviceLba, hsector]
  omega

theorem volume_eq (a : ℕ) :
    volume media startLba a =
      media ((startLba.toNat + a / 512) % 2 ^ 28) ⟨a % 512, Nat.mod_lt _ (by decide)⟩ := by
  rw [volume, deviceLba_ofNat]

/-- A sector of the volume that was made from a memory. -/
theorem volume_of_sector {q b : ℕ} {m : Memory}
    (hmedia : media ((startLba.toNat + q) % 2 ^ 28) = Sector.ofMemory m 0) (hb : b < 512) :
    volume media startLba (512 * q + b) = m b := by
  have hsector : (512 * q + b) / 512 = q := by omega
  have hbyte : (512 * q + b) % 512 = b := by omega
  rw [volume_eq, hsector, hmedia, Sector.ofMemory]
  simp only [hbyte, Nat.zero_add]

end Bytes

namespace DiskState

variable {k : DiskState} {c d : Fin 2}

/-- A sector that is hit holds in the end what one of the writes to it had. -/
theorem writeAll_media_mem {plan : List (UInt32 × Sector)} {a : ℕ}
    (hdone : (k.writeAll c d plan).1 = true) (hhit : ∃ w ∈ plan, deviceLba w.1 = a) :
    ∃ w ∈ plan, deviceLba w.1 = a ∧ (k.writeAll c d plan).2.media c d a = w.2 := by
  induction plan generalizing k with
  | nil =>
    obtain ⟨w, hw, -⟩ := hhit
    cases hw
  | cons v plan ih =>
    by_cases hlater : ∃ w ∈ plan, deviceLba w.1 = a
    · unfold writeAll at hdone ⊢
      by_cases hok : k.next.ok
      · rw [if_pos hok] at hdone ⊢
        obtain ⟨w, hw, hlba, hmedia⟩ := ih hdone hlater
        exact ⟨w, List.mem_cons_of_mem v hw, hlba, hmedia⟩
      · rw [if_neg hok] at hdone
        cases hdone
    · obtain ⟨w, hw, rfl⟩ := hhit
      rcases List.mem_cons.mp hw with rfl | hw
      · refine ⟨w, List.mem_cons_self .., rfl, ?_⟩
        exact writeAll_media_head hdone fun v hv heq => hlater ⟨v, hv, heq⟩
      · exact absurd ⟨w, hw, rfl⟩ hlater

theorem writeAll_media_of_forall {plan : List (UInt32 × Sector)} {a : ℕ} {x : Sector}
    (hdone : (k.writeAll c d plan).1 = true) (hhit : ∃ w ∈ plan, deviceLba w.1 = a)
    (hsame : ∀ w ∈ plan, deviceLba w.1 = a → w.2 = x) :
    (k.writeAll c d plan).2.media c d a = x := by
  obtain ⟨w, hw, hlba, hmedia⟩ := writeAll_media_mem hdone hhit
  rw [hmedia]
  exact hsame w hw hlba

end DiskState

section Ext4

/-- What the plan of a volume has at an offset from the start. -/
inductive PlannedAt (startLba totalSectors : UInt32) (o : ℕ) : Sector → Prop
  | superblock (ho : o = 2) :
    PlannedAt startLba totalSectors o (Sector.ofMemory (superblockMemory totalSectors) 0)
  | descriptor (g : ℕ) (hg : g < groupsOf totalSectors.toNat) (ho : o = 3 + g) :
    PlannedAt startLba totalSectors o (Sector.ofMemory
      ((ext4Geometry startLba totalSectors).descriptorMemory (UInt32.ofNat g)) 0)
  | blockBitmap (g : ℕ) (hg : g < groupsOf totalSectors.toNat) (ho : o = g % 32 * 2 ^ 18) :
    PlannedAt startLba totalSectors o (Sector.ofMemory blockBitmapMemory 0)
  | inodeBitmap (g : ℕ) (hg : g < groupsOf totalSectors.toNat) (ho : o = g % 32 * 2 ^ 18 + 1) :
    PlannedAt startLba totalSectors o (Sector.ofMemory zeroMemory 0)

variable {startLba totalSectors : UInt32} {w : UInt32 × Sector} {o : ℕ} {x : Sector}

theorem PlannedAt.lt (h : PlannedAt startLba totalSectors o x) : o < 2 ^ 28 := by
  have hgroups := groupsOf_le totalSectors
  cases h with
  | superblock ho => omega
  | descriptor g hg ho => omega
  | blockBitmap g hg ho => omega
  | inodeBitmap g hg ho => omega

/-- What can be at an offset is decided by its place among the multiples of `2^18`. -/
theorem PlannedAt.eq_superblock (h : PlannedAt startLba totalSectors 2 x) :
    x = Sector.ofMemory (superblockMemory totalSectors) 0 := by
  cases h with
  | superblock => rfl
  | descriptor g hg ho => omega
  | blockBitmap g hg ho => omega
  | inodeBitmap g hg ho => omega

theorem PlannedAt.eq_blockBitmap {n : ℕ} (h : PlannedAt startLba totalSectors (n * 2 ^ 18) x) :
    x = Sector.ofMemory blockBitmapMemory 0 := by
  have hgroups := groupsOf_le totalSectors
  cases h with
  | superblock ho => omega
  | descriptor g hg ho => omega
  | blockBitmap g hg ho => rfl
  | inodeBitmap g hg ho => omega

theorem PlannedAt.eq_inodeBitmap {n : ℕ}
    (h : PlannedAt startLba totalSectors (n * 2 ^ 18 + 1) x) :
    x = Sector.ofMemory zeroMemory 0 := by
  have hgroups := groupsOf_le totalSectors
  cases h with
  | superblock ho => omega
  | descriptor g hg ho => omega
  | blockBitmap g hg ho => omega
  | inodeBitmap g hg ho => rfl

theorem mem_ext4Plan (hw : w ∈ ext4Plan startLba totalSectors) :
    w = (startLba + 2, Sector.ofMemory (superblockMemory totalSectors) 0) ∨
      ∃ g < groupsOf totalSectors.toNat,
        w ∈ (ext4Geometry startLba totalSectors).groupPlan (UInt32.ofNat g) := by
  obtain ⟨i, hi, hget⟩ := List.mem_iff_getElem.mp hw
  have hget? : (ext4Plan startLba totalSectors)[i]? = some w :=
    List.getElem?_eq_some_iff.mpr ⟨hi, hget⟩
  cases i with
  | zero => exact Or.inl (superblockWrite_eq (List.prefix_refl _) hget?)
  | succ i =>
    have hplace : i + 1 = 1 + (3 * (i / 3) + i % 3) := by omega
    rw [hplace] at hget?
    obtain ⟨hg, hplan⟩ := groupWrite_eq (List.prefix_refl _) (Nat.mod_lt _ (by omega)) hget?
    exact Or.inr ⟨i / 3, hg, List.mem_of_getElem? hplan⟩

/-- The three sectors of a group by their offsets. -/
theorem groupPlan_offsets (startLba : UInt32) {g : ℕ} (hg : g < groupsOf totalSectors.toNat) :
    ((ext4Geometry startLba totalSectors).gdtSector (UInt32.ofNat g)).toNat =
        (startLba.toNat + (3 + g)) % 2 ^ 32 ∧
      ((ext4Geometry startLba totalSectors).bitmapSector (UInt32.ofNat g)).toNat =
        (startLba.toNat + g % 32 * 2 ^ 18) % 2 ^ 32 ∧
      ((ext4Geometry startLba totalSectors).bitmapSector (UInt32.ofNat g) + 1).toNat =
        (startLba.toNat + (g % 32 * 2 ^ 18 + 1)) % 2 ^ 32 := by
  have hgroup := ofNat_group totalSectors hg
  have hgdt := gdtSector_toNat startLba totalSectors (UInt32.ofNat g)
  have hbitmap := bitmapSector_toNat startLba totalSectors (UInt32.ofNat g)
  rw [hgroup] at hgdt hbitmap
  refine ⟨hgdt, hbitmap, ?_⟩
  rw [UInt32.toNat_add, hbitmap]
  change ((startLba.toNat + g % 32 * 2 ^ 18) % 2 ^ 32 + 1) % 2 ^ 32 = _
  omega

theorem mem_ext4Plan_planned (hw : w ∈ ext4Plan startLba totalSectors) :
    ∃ o, w.1.toNat = (startLba.toNat + o) % 2 ^ 32 ∧ PlannedAt startLba totalSectors o w.2 := by
  rcases mem_ext4Plan hw with rfl | ⟨g, hg, hw⟩
  · exact ⟨2, UInt32.toNat_add _ _, .superblock rfl⟩
  · obtain ⟨hgdt, hblock, hinode⟩ := groupPlan_offsets startLba hg
    simp only [Ext4Geometry.groupPlan, List.cons_append, List.nil_append, List.mem_cons,
      List.not_mem_nil, or_false] at hw
    rcases hw with rfl | rfl | rfl
    · exact ⟨_, hgdt, .descriptor g hg rfl⟩
    · exact ⟨_, hblock, .blockBitmap g hg rfl⟩
    · exact ⟨_, hinode, .inodeBitmap g hg rfl⟩

theorem PlannedAt.mem (h : PlannedAt startLba totalSectors o x) :
    ∃ w ∈ ext4Plan startLba totalSectors, w.1.toNat = (startLba.toNat + o) % 2 ^ 32 ∧ w.2 = x := by
  have hmem : ∀ {g r v}, g < groupsOf totalSectors.toNat → r < 3 →
      ((ext4Geometry startLba totalSectors).groupPlan (UInt32.ofNat g))[r]? = some v →
      v ∈ ext4Plan startLba totalSectors := fun hg hr hv =>
    List.mem_of_getElem? ((ext4Plan_getElem? startLba totalSectors hg hr).trans hv)
  cases h with
  | superblock ho =>
    subst ho
    exact ⟨_, List.mem_of_getElem? (superblockWrite_plan startLba totalSectors),
      UInt32.toNat_add _ _, rfl⟩
  | descriptor g hg ho =>
    subst ho
    exact ⟨_, hmem hg (by omega : 0 < 3) rfl, (groupPlan_offsets startLba hg).1, rfl⟩
  | blockBitmap g hg ho =>
    subst ho
    exact ⟨_, hmem hg (by omega : 1 < 3) rfl, (groupPlan_offsets startLba hg).2.1, rfl⟩
  | inodeBitmap g hg ho =>
    subst ho
    exact ⟨_, hmem hg (by omega : 2 < 3) rfl, (groupPlan_offsets startLba hg).2.2, rfl⟩

variable {k : DiskState} {c d : Fin 2}

/-- A successful call has read the sector at the start and written its plan. -/
theorem DiskState.formatExt4_done (hdone : (k.formatExt4 c d startLba totalSectors).1 = 0) :
    ((k.read c d (startLba + 2)).writeAll c d (ext4Plan startLba totalSectors)).1 = true ∧
      (k.formatExt4 c d startLba totalSectors).2 =
        ((k.read c d (startLba + 2)).writeAll c d (ext4Plan startLba totalSectors)).2 := by
  unfold formatExt4 at hdone ⊢
  by_cases hsize : totalSectors < 8192
  · simp [hsize] at hdone
  · by_cases habort : k.next.abort = true
    · simp [hsize, habort] at hdone
    · rw [if_neg hsize, if_neg habort] at hdone ⊢
      refine ⟨?_, rfl⟩
      by_contra hfail
      simp [hfail] at hdone

/-- The sectors of the plan lie so close that the drive tells their offsets apart. -/
theorem planned_of_device (hw : w ∈ ext4Plan startLba totalSectors) (ho : o < 2 ^ 28)
    (hlba : deviceLba w.1 = (startLba.toNat + o) % 2 ^ 28) :
    PlannedAt startLba totalSectors o w.2 := by
  obtain ⟨o', hsector, hplanned⟩ := mem_ext4Plan_planned hw
  have hlt := hplanned.lt
  obtain rfl : o' = o := by
    unfold deviceLba at hlba
    omega
  exact hplanned

/-- After a successful call a planned sector holds its data, if the plan has
only that at its offset. -/
theorem formatted_sector (hdone : (k.formatExt4 c d startLba totalSectors).1 = 0)
    (hx : PlannedAt startLba totalSectors o x)
    (honly : ∀ y, PlannedAt startLba totalSectors o y → y = x) :
    (k.formatExt4 c d startLba totalSectors).2.media c d ((startLba.toNat + o) % 2 ^ 28) = x := by
  obtain ⟨hall, hdisk⟩ := DiskState.formatExt4_done hdone
  rw [hdisk]
  apply DiskState.writeAll_media_of_forall hall
  · obtain ⟨w, hw, hsector, -⟩ := hx.mem
    exact ⟨w, hw, deviceLba_of_toNat hsector⟩
  · intro w hw hlba
    exact honly _ (planned_of_device hw hx.lt hlba)

end Ext4

end EtyOS
