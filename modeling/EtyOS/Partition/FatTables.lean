import EtyOS.Partition.Volume

/-!
# The tables of a FAT32 volume

The boot sector declares two tables of `sectors_per_fat_32` sectors each. They
are large enough for every size in whole megabytes. The formatter writes the
first sector of each, so the tables are empty exactly when the others were zero
before.
-/

namespace EtyOS

open Library

section Size

/-- A size of whole megabytes is larger than the reserved sectors. -/
theorem sectorsPerFat_of_megabytes (totalSectors : UInt32) {k : ℕ} (hk : 1 ≤ k)
    (htotal : totalSectors.toNat = 2048 * k) :
    (sectorsPerFat totalSectors).toNat = (2048 * k - 32) / 1026 * 2 := by
  have hlt := totalSectors.toNat_lt
  have hsub : (totalSectors.toNat + (2 ^ 32 - 32)) % 2 ^ 32 = 2048 * k - 32 := by omega
  rw [sectorsPerFat_toNat, hsub]

/-- A table has at least two sectors, both fit on the volume, and the entries of
one cover the clusters behind them and the two reserved numbers. -/
theorem fat_large_enough (totalSectors : UInt32) {k : ℕ} (hk : 1 ≤ k)
    (htotal : totalSectors.toNat = 2048 * k) :
    1 ≤ (sectorsPerFat totalSectors).toNat ∧
      32 + 2 * (sectorsPerFat totalSectors).toNat < totalSectors.toNat ∧
      (totalSectors.toNat - 32 - 2 * (sectorsPerFat totalSectors).toNat) / 8 + 2 ≤
        128 * (sectorsPerFat totalSectors).toNat := by
  have hfat := sectorsPerFat_of_megabytes totalSectors hk htotal
  -- with one megabyte the division leaves 990, just short of one entry too few
  rcases Nat.eq_or_lt_of_le hk with rfl | hmany
  · omega
  · omega

/-- One megabyte: 256 entries for 251 clusters and two more. -/
theorem fat_large_enough_megabyte :
    1 ≤ (sectorsPerFat 2048).toNat ∧
      32 + 2 * (sectorsPerFat 2048).toNat < (2048 : UInt32).toNat ∧
      ((2048 : UInt32).toNat - 32 - 2 * (sectorsPerFat 2048).toNat) / 8 + 2 ≤
        128 * (sectorsPerFat 2048).toNat :=
  fat_large_enough 2048 (k := 1) le_rfl rfl

end Size

section BootSector

variable (startLba totalSectors : UInt32)

/-- Bytes written inside one field do not touch the others. -/
theorem get_write_of_ne {f g : BootSectorField} (hfg : f ≠ g) (m : Memory) (bs : List UInt8)
    (hbs : bs.length ≤ fat32BootSector.size f) :
    fat32BootSector.get (m.write (fat32BootSector.offset f) bs) 0 g =
      fat32BootSector.get m 0 g := by
  apply fat32BootSector.get_congr_of_ne hfg
  intro b hb
  apply Memory.write_frame
  omega

/-- A field that is assigned before the texts and the signature keeps its value. -/
theorem get_before_texts {m : Memory} {vs : List (BootSectorField × ℕ)} {f : BootSectorField} {v : ℕ}
    (hnodup : (vs.map Prod.fst).Nodup) (hv : (f, v) ∈ vs)
    (hf : f ∉ [BootSectorField.volumeLabel, .fsType, .bootSignature2]) :
    fat32BootSector.get (fat32BootSector.set
      (((fat32BootSector.setAll m 0 vs).write (fat32BootSector.offset .volumeLabel)
        volumeLabel).write (fat32BootSector.offset .fsType) fatFsType) 0 .bootSignature2 0xAA55) 0 f =
      v % 256 ^ fat32BootSector.size f := by
  have hlabel : volumeLabel.length ≤ fat32BootSector.size .volumeLabel := by decide
  have hfs : fatFsType.length ≤ fat32BootSector.size .fsType := by decide
  simp only [List.mem_cons, List.not_mem_nil, or_false, not_or] at hf
  obtain ⟨hflabel, hffs, hfsignature⟩ := hf
  rw [fat32BootSector.get_set_of_ne _ _ _ (Ne.symm hfsignature),
    get_write_of_ne (Ne.symm hffs) _ _ hfs, get_write_of_ne (Ne.symm hflabel) _ _ hlabel,
    fat32BootSector.get_setAll _ _ hnodup hv]

/-- What the boot sector says about the tables. -/
theorem get_bootSectorMemory :
    fat32BootSector.get (bootSectorMemory startLba totalSectors) 0 .reservedSectors = 32 ∧
      fat32BootSector.get (bootSectorMemory startLba totalSectors) 0 .numFats = 2 ∧
      fat32BootSector.get (bootSectorMemory startLba totalSectors) 0 .sectorsPerFat32 =
        (sectorsPerFat totalSectors).toNat := by
  have hlt := (sectorsPerFat totalSectors).toNat_lt
  have hreserved : reservedSectors.toNat % 256 ^ fat32BootSector.size .reservedSectors = 32 := by
    decide
  have hfats : 2 % 256 ^ fat32BootSector.size .numFats = 2 := by decide
  have hfour : fat32BootSector.size .sectorsPerFat32 = 4 := by decide
  rw [bootSectorMemory]
  refine ⟨?_, ?_, ?_⟩
  · apply Eq.trans (get_before_texts _ _ (by decide)) hreserved
    · simp only [List.map_cons, List.map_nil]
      decide
    · simp
  · apply Eq.trans (get_before_texts _ _ (by decide)) hfats
    · simp only [List.map_cons, List.map_nil]
      decide
    · simp
  · apply Eq.trans (get_before_texts _ _ (by decide)) (Nat.mod_eq_of_lt (hfour ▸ hlt))
    · simp only [List.map_cons, List.map_nil]
      decide
    · simp

end BootSector

section Contents

variable {startLba totalSectors : UInt32} {k : DiskState} {c d : Fin 2}

theorem sectorsPerFat_lt (totalSectors : UInt32) : (sectorsPerFat totalSectors).toNat < 2 ^ 24 := by
  rw [sectorsPerFat_toNat]
  omega

theorem fat32Plan_second (startLba totalSectors : UInt32) :
    (startLba + reservedSectors + sectorsPerFat totalSectors).toNat =
      (startLba.toNat + (32 + (sectorsPerFat totalSectors).toNat)) % 2 ^ 32 := by
  have hfirst : (startLba + reservedSectors).toNat = (startLba.toNat + 32) % 2 ^ 32 :=
    UInt32.toNat_add _ _
  rw [UInt32.toNat_add, hfirst]
  omega

/-- The three sectors of the plan, by their offsets. -/
theorem fat32Plan_cases {w : UInt32 × Sector} (hw : w ∈ fat32Plan startLba totalSectors) :
    (w.1.toNat = startLba.toNat ∧
      w.2 = Sector.ofMemory (bootSectorMemory startLba totalSectors) 0) ∨
    (w.1.toNat = (startLba.toNat + 32) % 2 ^ 32 ∨
      w.1.toNat = (startLba.toNat + (32 + (sectorsPerFat totalSectors).toNat)) % 2 ^ 32) ∧
      w.2 = Sector.ofMemory fatSectorMemory 0 := by
  have hfirst : (startLba + reservedSectors).toNat = (startLba.toNat + 32) % 2 ^ 32 :=
    UInt32.toNat_add _ _
  have hsecond := fat32Plan_second startLba totalSectors
  simp only [fat32Plan, List.mem_cons, List.not_mem_nil, or_false] at hw
  rcases hw with rfl | rfl | rfl
  · exact Or.inl ⟨rfl, rfl⟩
  · exact Or.inr ⟨Or.inl hfirst, rfl⟩
  · exact Or.inr ⟨Or.inr hsecond, rfl⟩

/-- What the plan has for a sector of the disk. -/
theorem fat32Plan_at {w : UInt32 × Sector} {o : ℕ} (hw : w ∈ fat32Plan startLba totalSectors)
    (ho : o < 2 ^ 28) (hlba : deviceLba w.1 = (startLba.toNat + o) % 2 ^ 28) :
    (o = 0 ∧ w.2 = Sector.ofMemory (bootSectorMemory startLba totalSectors) 0) ∨
      (o = 32 ∨ o = 32 + (sectorsPerFat totalSectors).toNat) ∧
        w.2 = Sector.ofMemory fatSectorMemory 0 := by
  have hlt := sectorsPerFat_lt totalSectors
  unfold deviceLba at hlba
  rcases fat32Plan_cases hw with ⟨hsector, hdata⟩ | ⟨hsector | hsector, hdata⟩
  · exact Or.inl ⟨by omega, hdata⟩
  · exact Or.inr ⟨Or.inl (by omega), hdata⟩
  · exact Or.inr ⟨Or.inr (by omega), hdata⟩

/-- What a successful call leaves on the volume: the boot sector, the first
sector of each table, and the rest as it was. -/
theorem formatFat32_media (hdone : (k.formatFat32 c d startLba totalSectors).1 = 0) {o : ℕ}
    (ho : o < 2 ^ 28) :
    (k.formatFat32 c d startLba totalSectors).2.media c d ((startLba.toNat + o) % 2 ^ 28) =
      if o = 0 then Sector.ofMemory (bootSectorMemory startLba totalSectors) 0
      else if o = 32 ∨ o = 32 + (sectorsPerFat totalSectors).toNat then
        Sector.ofMemory fatSectorMemory 0
      else k.media c d ((startLba.toNat + o) % 2 ^ 28) := by
  have hall : (k.writeAll c d (fat32Plan startLba totalSectors)).1 = true := by
    by_contra hfail
    simp [DiskState.formatFat32, hfail] at hdone
  have hsecond := fat32Plan_second startLba totalSectors
  change (k.writeAll c d (fat32Plan startLba totalSectors)).2.media c d _ = _
  by_cases hboot : o = 0
  · rw [if_pos hboot]
    apply DiskState.writeAll_media_of_forall hall
    · refine ⟨_, List.mem_cons_self .., deviceLba_of_toNat ?_⟩
      rw [hboot, Nat.add_zero]
      exact (Nat.mod_eq_of_lt startLba.toNat_lt).symm
    · intro w hw hlba
      rcases fat32Plan_at hw ho hlba with ⟨-, hdata⟩ | ⟨hfat, -⟩
      · exact hdata
      · omega
  · rw [if_neg hboot]
    by_cases hfat : o = 32 ∨ o = 32 + (sectorsPerFat totalSectors).toNat
    · rw [if_pos hfat]
      apply DiskState.writeAll_media_of_forall hall
      · rcases hfat with rfl | rfl
        · exact ⟨_, .tail _ (.head _), deviceLba_of_toNat (UInt32.toNat_add _ _)⟩
        · exact ⟨_, .tail _ (.tail _ (.head _)), deviceLba_of_toNat hsecond⟩
      · intro w hw hlba
        rcases fat32Plan_at hw ho hlba with ⟨hzero, -⟩ | ⟨-, hdata⟩
        · exact absurd hzero hboot
        · exact hdata
    · rw [if_neg hfat]
      apply DiskState.writeAll_media_of_ne
      rintro w hw ⟨-, -, hlba⟩
      rcases fat32Plan_at hw ho hlba.symm with ⟨hzero, -⟩ | ⟨hone, -⟩
      · exact hboot hzero
      · exact hfat hone

/-- The bytes of the two tables after a successful call. -/
theorem formatFat32_table (hdone : (k.formatFat32 c d startLba totalSectors).1 = 0) {copy a : ℕ}
    (hcopy : copy < 2) (ha : a < 512 ∨ a < 512 * (sectorsPerFat totalSectors).toNat) :
    volume ((k.formatFat32 c d startLba totalSectors).2.media c d) startLba
        (512 * (32 + copy * (sectorsPerFat totalSectors).toNat) + a) =
      if a < 512 then fatSectorMemory a
      else volume (k.media c d) startLba
        (512 * (32 + copy * (sectorsPerFat totalSectors).toNat) + a) := by
  have hlt := sectorsPerFat_lt totalSectors
  have hbase : copy * (sectorsPerFat totalSectors).toNat = 0 ∧ copy = 0 ∨
      copy * (sectorsPerFat totalSectors).toNat = (sectorsPerFat totalSectors).toNat ∧ copy = 1 := by
    obtain rfl | rfl : copy = 0 ∨ copy = 1 := by omega
    · exact Or.inl ⟨Nat.zero_mul _, rfl⟩
    · exact Or.inr ⟨Nat.one_mul _, rfl⟩
  generalize copy * (sectorsPerFat totalSectors).toNat = base at hbase ⊢
  by_cases hfirst : a < 512
  · have hmedia := formatFat32_media hdone (o := 32 + base) (by omega)
    rw [if_neg (by omega), if_pos (by omega)] at hmedia
    rw [if_pos hfirst, volume_of_sector hmedia hfirst]
  · have hmedia := formatFat32_media hdone (o := 32 + base + a / 512) (by omega)
    rw [if_neg (by omega), if_neg (by omega)] at hmedia
    have hsector : (512 * (32 + base) + a) / 512 = 32 + base + a / 512 := by omega
    rw [if_neg hfirst, volume_eq, volume_eq]
    simp only [hsector, hmedia]

/-- The boot sector is read back. -/
theorem formatFat32_boot (hdone : (k.formatFat32 c d startLba totalSectors).1 = 0)
    (f : BootSectorField) :
    fat32BootSector.get
        (volume ((k.formatFat32 c d startLba totalSectors).2.media c d) startLba) 0 f =
      fat32BootSector.get (bootSectorMemory startLba totalSectors) 0 f := by
  have hmedia := formatFat32_media hdone (o := 0) (by omega)
  have hend := fat32BootSector.offset_add_size_le f
  rw [if_pos rfl] at hmedia
  rw [sizeof_fat32BootSector] at hend
  apply fat32BootSector.get_of_shows (n := 512) _ hend
  intro b hb
  rw [← volume_of_sector hmedia hb]

end Contents

section Entries

/-- Entry `n` of a table, where the boot sector of the volume has the table. -/
def fatEntry (m : Memory) (copy n : ℕ) : ℕ :=
  m.load (512 * (fat32BootSector.get m 0 .reservedSectors +
    copy * fat32BootSector.get m 0 .sectorsPerFat32) + 4 * n) 4

/-- The number of entries in a table. -/
def fatEntries (m : Memory) : ℕ := 128 * fat32BootSector.get m 0 .sectorsPerFat32

/-- Only the entries that belong to no file or to the root directory are taken,
and the tables are the same. -/
structure EmptyFats (m : Memory) : Prop where
  taken : ∀ copy < fat32BootSector.get m 0 .numFats,
    fatEntry m copy 0 = 0x0FFFFFF8 ∧ fatEntry m copy 1 = 0x0FFFFFFF ∧
      fatEntry m copy 2 = 0x0FFFFFFF
  free : ∀ copy < fat32BootSector.get m 0 .numFats, ∀ n, 3 ≤ n → n < fatEntries m →
    fatEntry m copy n = 0
  same : ∀ n < fatEntries m, fatEntry m 0 n = fatEntry m 1 n

theorem fatSectorMemory_load (n : ℕ) :
    fatSectorMemory.load (4 * n) 4 =
      if n = 0 then 0x0FFFFFF8 else if n = 1 ∨ n = 2 then 0x0FFFFFFF else 0 := by
  rw [fatSectorMemory]
  by_cases hthird : n = 2
  · subst hthird
    rw [Memory.load_store_of_lt _ (by decide)]
    rfl
  · rw [Memory.load_store_disjoint _ _ (by omega)]
    by_cases hsecond : n = 1
    · subst hsecond
      rw [Memory.load_store_of_lt _ (by decide)]
      rfl
    · rw [Memory.load_store_disjoint _ _ (by omega)]
      by_cases hfirst : n = 0
      · subst hfirst
        rw [Memory.load_store_of_lt _ (by decide), if_pos rfl]
      · rw [Memory.load_store_disjoint _ _ (by omega), if_neg hfirst,
          if_neg (not_or.mpr ⟨hsecond, hthird⟩)]
        exact Memory.load_eq_zero fun _ _ _ => rfl

/-- A word is zero when all its bytes are. -/
theorem byte_of_load_eq_zero {m : Memory} {a n b : ℕ} (h : m.load a n = 0) (hb : a ≤ b)
    (hn : b < a + n) : m b = 0 := by
  have hzero : m.load a n = Memory.load zeroMemory a n :=
    h.trans (Memory.load_eq_zero fun _ _ _ => rfl).symm
  exact Memory.load_injective hzero b hb hn

end Entries

section Fresh

variable {c d : Fin 2} {startLba totalSectors : UInt32} {k : DiskState}

/-- The bytes behind the first sector of each table are zero. -/
def TablesZero (m : Memory) (sectors : ℕ) : Prop :=
  ∀ copy < 2, ∀ a, 512 ≤ a → a < 512 * sectors → m (512 * (32 + copy * sectors) + a) = 0

/-- Where an entry of a formatted volume is. -/
theorem fatEntry_formatted (hdone : (k.formatFat32 c d startLba totalSectors).1 = 0) (copy n : ℕ) :
    fatEntry (volume ((k.formatFat32 c d startLba totalSectors).2.media c d) startLba) copy n =
      Memory.load (volume ((k.formatFat32 c d startLba totalSectors).2.media c d) startLba)
        (512 * (32 + copy * (sectorsPerFat totalSectors).toNat) + 4 * n) 4 := by
  obtain ⟨hreserved, -, hsectors⟩ := get_bootSectorMemory startLba totalSectors
  rw [fatEntry, formatFat32_boot hdone, formatFat32_boot hdone, hreserved, hsectors]

theorem fatEntries_formatted (hdone : (k.formatFat32 c d startLba totalSectors).1 = 0) :
    fatEntries (volume ((k.formatFat32 c d startLba totalSectors).2.media c d) startLba) =
      128 * (sectorsPerFat totalSectors).toNat := by
  obtain ⟨-, -, hsectors⟩ := get_bootSectorMemory startLba totalSectors
  rw [fatEntries, formatFat32_boot hdone, hsectors]

/-- The first entries of the tables after a successful call. -/
theorem fatEntry_first (hdone : (k.formatFat32 c d startLba totalSectors).1 = 0) {copy n : ℕ}
    (hcopy : copy < 2) (hn : n < 128) :
    fatEntry (volume ((k.formatFat32 c d startLba totalSectors).2.media c d) startLba) copy n =
      if n = 0 then 0x0FFFFFF8 else if n = 1 ∨ n = 2 then 0x0FFFFFFF else 0 := by
  rw [fatEntry_formatted hdone, ← Memory.load_shift, ← fatSectorMemory_load]
  apply Memory.load_congr
  intro b _ hb
  rw [Memory.shift, formatFat32_table hdone hcopy (by omega), if_pos (by omega)]

/-- The entries that no write of the call reaches. -/
theorem fatEntry_later (hdone : (k.formatFat32 c d startLba totalSectors).1 = 0)
    (hzero : TablesZero (volume (k.media c d) startLba) (sectorsPerFat totalSectors).toNat)
    {copy n : ℕ} (hcopy : copy < 2) (hn : 128 ≤ n)
    (hend : n < 128 * (sectorsPerFat totalSectors).toNat) :
    fatEntry (volume ((k.formatFat32 c d startLba totalSectors).2.media c d) startLba) copy n =
      0 := by
  rw [fatEntry_formatted hdone]
  apply Memory.load_eq_zero
  intro b hb hb'
  obtain ⟨a, rfl⟩ : ∃ a, b = 512 * (32 + copy * (sectorsPerFat totalSectors).toNat) + a :=
    ⟨b - 512 * (32 + copy * (sectorsPerFat totalSectors).toNat), by omega⟩
  rw [formatFat32_table hdone hcopy (Or.inr (by omega)), if_neg (by omega)]
  exact hzero copy hcopy a (by omega) (by omega)

/-- The tables are empty after a successful call exactly when they were zero
behind their first sectors before. -/
theorem emptyFats_formatted_iff (hdone : (k.formatFat32 c d startLba totalSectors).1 = 0) :
    EmptyFats (volume ((k.formatFat32 c d startLba totalSectors).2.media c d) startLba) ↔
      TablesZero (volume (k.media c d) startLba) (sectorsPerFat totalSectors).toNat := by
  have hcount := fatEntries_formatted hdone
  have hfats : fat32BootSector.get (volume ((k.formatFat32 c d startLba totalSectors).2.media c d)
      startLba) 0 .numFats = 2 :=
    (formatFat32_boot hdone _).trans (get_bootSectorMemory startLba totalSectors).2.1
  constructor
  · intro hempty copy hcopy a ha hend
    have hfree := hempty.free copy (hfats ▸ hcopy) (a / 4) (by omega) (by omega)
    rw [fatEntry_formatted hdone] at hfree
    have hbyte := byte_of_load_eq_zero (b := 512 * (32 + copy * (sectorsPerFat totalSectors).toNat)
      + a) hfree (by omega) (by omega)
    rwa [formatFat32_table hdone hcopy (Or.inr hend), if_neg (by omega)] at hbyte
  · intro hzero
    constructor
    · intro copy hcopy
      rw [hfats] at hcopy
      refine ⟨?_, ?_, ?_⟩
      · exact fatEntry_first hdone hcopy (by omega)
      · exact fatEntry_first hdone hcopy (by omega)
      · exact fatEntry_first hdone hcopy (by omega)
    · intro copy hcopy n hn hend
      rw [hfats] at hcopy
      by_cases hfirst : n < 128
      · rw [fatEntry_first hdone hcopy hfirst, if_neg (by omega), if_neg (by omega)]
      · exact fatEntry_later hdone hzero hcopy (by omega) (hcount ▸ hend)
    · intro n hend
      by_cases hfirst : n < 128
      · rw [fatEntry_first hdone (by omega) hfirst, fatEntry_first hdone (by omega) hfirst]
      · rw [fatEntry_later hdone hzero (by omega) (by omega) (hcount ▸ hend),
          fatEntry_later hdone hzero (by omega) (by omega) (hcount ▸ hend)]

/-- A kernel function acts on the disks like `f`, whatever the rest of the state. -/
def ActsOnDisk (y : Kernel ℤ) (f : DiskState → ℤ × DiskState) : Prop :=
  ∀ s, ∃ s', y.run s = some ((f s.disk).1, s') ∧ s'.disk = (f s.disk).2

/-- A write with an early return, followed by the rest of the formatter. -/
theorem ActsOnDisk.write_then {y : Kernel ℤ} {f : DiskState → ℤ × DiskState} (hy : ActsOnDisk y f)
    (c d : Fin 2) (lba : UInt32) (m : Memory) :
    ActsOnDisk
      (do let rc ← ataWriteSectorDisk c d lba 0 m; if rc ≠ 0 then return -1 else y : Kernel ℤ)
      fun k => if k.next.ok then f (k.write c d lba (Sector.ofMemory m 0))
        else (-1, k.write c d lba (Sector.ofMemory m 0)) := by
  intro s
  rw [run_bind_of_run _ (run_writeSector c d lba 0 m s)]
  by_cases hok : s.bus.next.ok
  · obtain ⟨s', hrun, hdisk⟩ := hy ((s.write c d lba (Sector.ofMemory m 0)).print
      (writeMessage s.bus.next))
    rw [Machine.disk_print, Machine.disk_write] at hrun hdisk
    refine ⟨s', ?_, ?_⟩
    · simpa [hok] using hrun
    · simpa [hok] using hdisk
  · refine ⟨(s.write c d lba (Sector.ofMemory m 0)).print (writeMessage s.bus.next), ?_, ?_⟩
    · simp [hok]
    · simp [hok]

theorem ActsOnDisk.of_eq {y : Kernel ℤ} {f g : DiskState → ℤ × DiskState} (hy : ActsOnDisk y f)
    (hfg : ∀ k, f k = g k) : ActsOnDisk y g := by
  intro s
  rw [← hfg]
  exact hy s

theorem formatFat32_actsOnDisk (c d : Fin 2) (startLba totalSectors : UInt32) :
    ActsOnDisk (formatFat32 c d startLba totalSectors)
      fun k => k.formatFat32 c d startLba totalSectors := by
  have hreturn : ActsOnDisk (pure 0) fun k => (0, k) := fun s => ⟨s, rfl, rfl⟩
  apply (((hreturn.write_then c d _ _).write_then c d _ _).write_then c d _ _).of_eq
  intro k
  simp only [DiskState.formatFat32, fat32Plan, DiskState.writeAll]
  split
  · split
    · split <;> rfl
    · rfl
  · rfl

variable (c d startLba totalSectors)

/-- After a successful call the tables are empty exactly when the disk was zero
behind their first sectors, whatever its contents, the start and the size. -/
theorem emptyFats_iff (s : Machine) :
    ∃ rc s', (formatFat32 c d startLba totalSectors).run s = some (rc, s') ∧ (rc = 0 →
      (EmptyFats (volume (s'.bus.media c d) startLba) ↔
        TablesZero (volume (s.bus.media c d) startLba) (sectorsPerFat totalSectors).toNat)) := by
  obtain ⟨s', hrun, hdisk⟩ := formatFat32_actsOnDisk c d startLba totalSectors s
  refine ⟨_, s', hrun, ?_⟩
  intro hdone
  have hmedia : s'.bus.media = (s.disk.formatFat32 c d startLba totalSectors).2.media :=
    congrArg DiskState.media hdisk
  rw [hmedia]
  exact emptyFats_formatted_iff hdone

/-- One megabyte at sector 2048 of a disk full of ones: the second sector of the
first table is not written, and its first entry is not free. -/
theorem fatEntry_stale :
    ∃ s', (formatFat32 0 0 2048 2048).run (bootMachine (fun _ _ _ _ => 0xFF)
        (fun _ => promptAnswer) fun _ => none) = some (0, s') ∧
      fatEntries (volume (s'.bus.media 0 0) 2048) = 256 ∧
      fatEntry (volume (s'.bus.media 0 0) 2048) 0 128 = 0xFFFFFFFF := by
  set s := bootMachine (fun _ _ _ _ => 0xFF) (fun _ => promptAnswer) fun _ => none
  obtain ⟨s', hrun, hdisk⟩ := formatFat32_actsOnDisk 0 0 2048 2048 s
  have hdone : (s.disk.formatFat32 0 0 2048 2048).1 = 0 := by
    rw [DiskState.formatFat32, (DiskState.writeAll_ok_iff _).mpr fun _ _ => ⟨rfl, rfl⟩]
    rfl
  have hmedia : s'.bus.media = (s.disk.formatFat32 0 0 2048 2048).2.media :=
    congrArg DiskState.media hdisk
  obtain ⟨hreserved, -, hsectors⟩ := get_bootSectorMemory 2048 2048
  have hsize : (sectorsPerFat 2048).toNat = 2 := by decide
  have hbyte : ∀ j < 4, volume (s'.bus.media 0 0) 2048 (512 * (32 + 0 * 2) + (512 + j)) = 0xFF := by
    intro j hj
    have hin : 512 + j < 512 ∨ 512 + j < 512 * (sectorsPerFat 2048).toNat := by omega
    have htable := formatFat32_table hdone (by omega : 0 < 2) hin
    rw [hsize, if_neg (by omega), ← hmedia] at htable
    exact htable
  refine ⟨s', hdone ▸ hrun, ?_, ?_⟩
  · rw [hmedia, fatEntries, formatFat32_boot hdone, hsectors, hsize]
  · rw [fatEntry, hmedia, formatFat32_boot hdone, formatFat32_boot hdone, hreserved, hsectors, hsize,
      ← hmedia]
    have hzero := hbyte 0 (by omega)
    have hone := hbyte 1 (by omega)
    have htwo := hbyte 2 (by omega)
    have hthree := hbyte 3 (by omega)
    simp only [Nat.zero_mul, Nat.add_zero, Nat.reduceMul, Nat.reduceAdd] at hzero hone htwo hthree
    simp only [Memory.load, Nat.zero_mul, Nat.add_zero, Nat.reduceMul, Nat.reduceAdd, hzero, hone,
      htwo, hthree]
    rfl

end Fresh

end EtyOS
