import EtyOS.Disktool.DisktoolSpec

/-!
# The table of disks after a scan

A scan asks four positions in a fixed order and enters those that answer, one
after the other, from index 0 on. Entries from the number of answers on keep
what an earlier scan left there.
-/

namespace EtyOS

open Library

/-- The entry that an answer to IDENTIFY gives rise to. -/
def Config.entryOf (g : Config) (n : ℕ) (c d : Fin 2) : Option DiskInfo :=
  (g.identify (g.scanned + n)).map fun a => diskInfo c d (identifyBuffer a.word)

/-- The entries of the drives that answer the next scan, in the order of the scan. -/
def Config.found (g : Config) : List DiskInfo :=
  (g.entryOf 0 0 0).toList ++ (g.entryOf 1 0 1).toList ++ (g.entryOf 2 1 0).toList ++
    (g.entryOf 3 1 1).toList

/-- The table starts with the entries `l`; behind them it is as in `old`. -/
structure Config.Lists (g : Config) (old : ℕ → DiskInfo) (l : List DiskInfo) : Prop where
  numDisks : g.numDisks = l.length
  availableDisks : ∀ j, g.availableDisks j = (l[j]?).getD (old j)

section Scan

variable {g : Config} {old : ℕ → DiskInfo} {l : List DiskInfo}

theorem Config.Lists.scan (h : g.Lists old l) (c d : Fin 2) :
    (g.scan c d).Lists old (l ++ (g.entryOf 0 c d).toList) := by
  rw [Config.scan, Config.entryOf, Nat.add_zero]
  cases g.identify g.scanned with
  | none => exact ⟨by simpa using h.numDisks, by simpa using h.availableDisks⟩
  | some a =>
    refine ⟨by simp [h.numDisks], ?_⟩
    intro j
    simp only [Option.map_some, Option.toList_some]
    by_cases hj : j = g.numDisks
    · subst hj
      rw [Function.update_self, h.numDisks, List.getElem?_append_right le_rfl]
      simp
    · rw [Function.update_of_ne hj, h.availableDisks j]
      rw [h.numDisks] at hj
      by_cases hlt : j < l.length
      · rw [List.getElem?_append_left hlt]
      · rw [List.getElem?_eq_none (by omega), List.getElem?_eq_none (by simp; omega)]

@[simp] theorem Config.scan_scanned (c d : Fin 2) : (g.scan c d).scanned = g.scanned + 1 := by
  unfold Config.scan
  split <;> rfl

@[simp] theorem Config.scan_identify (c d : Fin 2) : (g.scan c d).identify = g.identify := by
  unfold Config.scan
  split <;> rfl

@[simp] theorem Config.scan_currentDisk (c d : Fin 2) :
    (g.scan c d).currentDisk = g.currentDisk := by
  unfold Config.scan
  split <;> rfl

@[simp] theorem Config.scan_entryOf (c d c' d' : Fin 2) (n : ℕ) :
    (g.scan c d).entryOf n c' d' = g.entryOf (n + 1) c' d' := by
  rw [entryOf, entryOf, scan_scanned, scan_identify, Nat.add_right_comm, Nat.add_assoc]

variable (g)

theorem Config.rescan_lists : g.rescan.Lists g.availableDisks g.found := by
  have hstart : ({ g with numDisks := 0 } : Config).Lists g.availableDisks [] :=
    ⟨rfl, fun j => rfl⟩
  have hscan := (((hstart.scan 0 0).scan 0 1).scan 1 0).scan 1 1
  simp only [Config.scan_entryOf, List.nil_append] at hscan
  exact hscan

/-- After a scan there are as many disks as drives that answered. -/
theorem Config.rescan_numDisks : g.rescan.numDisks = g.found.length := g.rescan_lists.numDisks

theorem Config.rescan_availableDisks (j : ℕ) :
    g.rescan.availableDisks j = (g.found[j]?).getD (g.availableDisks j) :=
  g.rescan_lists.availableDisks j

@[simp] theorem Config.rescan_currentDisk : g.rescan.currentDisk = g.currentDisk := by
  simp [Config.rescan]

@[simp] theorem Config.rescan_scanned : g.rescan.scanned = g.scanned + 4 := by
  simp [Config.rescan]

@[simp] theorem Config.rescan_identify : g.rescan.identify = g.identify := by
  simp [Config.rescan]

end Scan

section Sizes

/-- The product wraps, so only the low 23 bits of the sector count matter. -/
theorem sectorsToMb_toNat (n : UInt32) : (sectorsToMb n).toNat = n.toNat % 2 ^ 23 / 2048 := by
  have hlt := n.toNat_lt
  rw [sectorsToMb, UInt32.toNat_div, UInt32.toNat_mul]
  change n.toNat * 512 % 2 ^ 32 / 1048576 = _
  omega

theorem diskInfo_sizeMb (c d : Fin 2) (buffer : ℕ → UInt16) :
    (diskInfo c d buffer).sizeMb.toNat = (identifySectors buffer).toNat % 2 ^ 23 / 2048 := by
  rw [diskInfo, UInt32.toNat_toUInt64, sectorsToMb_toNat]

/-- Every entry found comes from the answer of its own position. -/
theorem mem_found {g : Config} {disk : DiskInfo} (h : disk ∈ g.found) :
    ∃ a, g.identify (g.scanned + (2 * disk.controller.val + disk.drive.val)) = some a ∧
      disk = diskInfo disk.controller disk.drive (identifyBuffer a.word) := by
  have hentry : ∀ c d : Fin 2, disk ∈ (g.entryOf (2 * c.val + d.val) c d).toList →
      ∃ a, g.identify (g.scanned + (2 * disk.controller.val + disk.drive.val)) = some a ∧
        disk = diskInfo disk.controller disk.drive (identifyBuffer a.word) := by
    intro c d hmem
    rw [Option.mem_toList, Config.entryOf, Option.map_eq_some_iff] at hmem
    obtain ⟨a, ha, rfl⟩ := hmem
    exact ⟨a, ha, rfl⟩
  simp only [Config.found, List.mem_append] at h
  rcases h with ((h | h) | h) | h
  · exact hentry 0 0 h
  · exact hentry 0 1 h
  · exact hentry 1 0 h
  · exact hentry 1 1 h

end Sizes

end EtyOS
