import EtyOS.Partition.CreateSpec

/-!
# The partition table that sector 0 stands for

Four entries of eight numbers each. Filling and clearing a slot of the sector
fills and clears that entry of the table and leaves the other entries and the
bytes around the table alone; table and surrounding bytes determine the sector.
-/

namespace EtyOS

open Library

/-- One entry of the table. -/
@[ext]
structure MbrEntry where
  status : ℕ
  startHead : ℕ
  startSector : ℕ
  type : ℕ
  endHead : ℕ
  endSector : ℕ
  lbaFirst : ℕ
  sectorCount : ℕ
  deriving DecidableEq, Repr

abbrev MbrTable := Fin 4 → MbrEntry

namespace MbrEntry

/-- The entry of a deleted partition. -/
def empty : MbrEntry := ⟨0, 0, 0, 0, 0, 0, 0, 0⟩

/-- A new partition keeps the CHS numbers of its slot. -/
def fill (e : MbrEntry) (type lbaFirst sectorCount : ℕ) : MbrEntry :=
  { e with status := 0, type := type, lbaFirst := lbaFirst, sectorCount := sectorCount }

/-- The sectors of a partition. -/
def sectors (e : MbrEntry) : Set ℕ := Set.Ico e.lbaFirst (e.lbaFirst + e.sectorCount)

/-- The entry at address `a`. -/
def decode (m : Memory) (a : ℕ) : MbrEntry where
  status := partitionEntry.get m a .status
  startHead := partitionEntry.get m a .startHead
  startSector := partitionEntry.get m a .startSector
  type := partitionEntry.get m a .type
  endHead := partitionEntry.get m a .endHead
  endSector := partitionEntry.get m a .endSector
  lbaFirst := partitionEntry.get m a .lbaFirst
  sectorCount := partitionEntry.get m a .sectorCount

end MbrEntry

namespace MbrTable

/-- The lowest free slot. -/
def freeSlot (T : MbrTable) : Option (Fin 4) := (List.finRange 4).find? fun i => (T i).type = 0

/-- A new partition takes the lowest free slot, if there is one. -/
def create (T : MbrTable) (type lbaFirst sectorCount : ℕ) : MbrTable :=
  match T.freeSlot with
  | none => T
  | some i => Function.update T i ((T i).fill type lbaFirst sectorCount)

def delete (T : MbrTable) (i : Fin 4) : MbrTable := Function.update T i MbrEntry.empty

end MbrTable

/-- The table in sector 0. -/
def Sector.table (x : Sector) : MbrTable := fun i => MbrEntry.decode x.mbr (entryAt i)

section Decode

variable {m m' : Memory} {a : ℕ}

theorem MbrEntry.decode_congr (h : ∀ b, a ≤ b → b < a + 16 → m' b = m b) :
    MbrEntry.decode m' a = MbrEntry.decode m a := by
  have hget : ∀ f, partitionEntry.get m' a f = partitionEntry.get m a f := by
    intro f
    have hsize := partitionEntry.offset_add_size_le f
    rw [sizeof_partitionEntry] at hsize
    exact Memory.load_congr fun b hb hb' => h b (by omega) (by omega)
  simp only [MbrEntry.decode, hget]

theorem MbrEntry.decode_fill (m : Memory) (a : ℕ) (code : UInt8) (startLba count : UInt32) :
    MbrEntry.decode (PartitionEntry.fill m a code startLba count) a =
      (MbrEntry.decode m a).fill code.toNat startLba.toNat count.toNat := by
  have hkept : ∀ f, f ∉ [PartitionField.status, .type, .lbaFirst, .sectorCount] →
      partitionEntry.get (PartitionEntry.fill m a code startLba count) a f =
        partitionEntry.get m a f := fun f hf => partitionEntry.get_setAll_of_not_mem _ _ _ hf
  have hset : ∀ f v, (f, v) ∈ [(PartitionField.status, 0), (.type, code.toNat),
      (.lbaFirst, startLba.toNat), (.sectorCount, count.toNat)] →
      partitionEntry.get (PartitionEntry.fill m a code startLba count) a f =
        v % 256 ^ partitionEntry.size f := fun f v hv => partitionEntry.get_setAll _ _ (by simp) hv
  have hcode := code.toNat_lt
  have hlba := startLba.toNat_lt
  have hcount := count.toNat_lt
  simp only [MbrEntry.decode, MbrEntry.fill, hset .status 0 (by simp),
    hset .type code.toNat (by simp), hset .lbaFirst startLba.toNat (by simp),
    hset .sectorCount count.toNat (by simp), hkept .startHead (by decide),
    hkept .startSector (by decide), hkept .endHead (by decide), hkept .endSector (by decide)]
  congr 1
  · exact Nat.mod_eq_of_lt hcode
  · exact Nat.mod_eq_of_lt hlba
  · exact Nat.mod_eq_of_lt hcount

theorem MbrEntry.decode_clear (m : Memory) (a : ℕ) :
    MbrEntry.decode (PartitionEntry.clear m a) a = MbrEntry.empty := by
  have hget : ∀ f, partitionEntry.get (PartitionEntry.clear m a) a f = 0 := fun f =>
    Memory.load_fill_zero _ (by omega) (by have := partitionEntry.offset_add_size_le f; omega)
  simp only [MbrEntry.decode, MbrEntry.empty, hget]

end Decode

section Sector

variable (x : Sector) (i j : Fin 4) (code : UInt8) (startLba count : UInt32)

theorem Sector.mbr_apply (x : Sector) {b : ℕ} (hb : b < 512) : x.mbr b = x ⟨b, hb⟩ := by
  rw [Sector.mbr, Sector.toMemory, dif_pos (by omega)]
  rfl

/-- Reading back what has been written: inside the sector it is the memory. -/
theorem Sector.mbr_ofMemory (m : Memory) {b : ℕ} (hb : b < 512) :
    (Sector.ofMemory m 0).mbr b = m b := by
  rw [Sector.mbr_apply _ hb, Sector.ofMemory, Nat.zero_add]

theorem entryAt_lt : entryAt i + 16 ≤ 510 := by
  have := i.isLt
  unfold entryAt partitionTableOffset
  omega

theorem table_ofMemory (m : Memory) :
    (Sector.ofMemory m 0).table i = MbrEntry.decode m (entryAt i) :=
  MbrEntry.decode_congr fun b _ hb' => Sector.mbr_ofMemory m (by have := entryAt_lt i; omega)

theorem fill_frame (m : Memory) {a b : ℕ} (h : b < a ∨ a + 16 ≤ b) :
    PartitionEntry.fill m a code startLba count b = m b :=
  partitionEntry.setAll_frame _ _ (by rw [sizeof_partitionEntry]; exact h)

theorem clear_frame (m : Memory) {a b : ℕ} (h : b < a ∨ a + 16 ≤ b) :
    PartitionEntry.clear m a b = m b :=
  Memory.fill_frame _ _ (by rw [sizeof_partitionEntry]; exact h)

/-- A change of slot `i` alone changes entry `i` alone. -/
theorem table_update {m : Memory} {e : MbrEntry}
    (hframe : ∀ b, b < entryAt i ∨ entryAt i + 16 ≤ b → m b = x.mbr b)
    (hentry : MbrEntry.decode m (entryAt i) = e) :
    (Sector.ofMemory m 0).table = Function.update x.table i e := by
  funext j
  rw [table_ofMemory]
  by_cases hj : j = i
  · rw [hj, Function.update_self, hentry]
  · rw [Function.update_of_ne hj]
    refine MbrEntry.decode_congr fun b hb hb' => hframe b ?_
    have hne : j.val ≠ i.val := fun h => hj (Fin.ext h)
    unfold entryAt at hb hb' ⊢
    omega

theorem table_fillSlot :
    (x.fillSlot i code startLba count).table =
      Function.update x.table i ((x.table i).fill code.toNat startLba.toNat count.toNat) :=
  table_update x i (fun _ hb => fill_frame code startLba count _ hb)
    (MbrEntry.decode_fill _ _ _ _ _)

theorem table_clearSlot :
    (x.clearSlot i).table = x.table.delete i :=
  table_update x i (fun _ hb => clear_frame _ hb) (MbrEntry.decode_clear _ _)

/-- The bytes around the table. -/
def OutsideTable (b : Fin 512) : Prop := b.val < 446 ∨ 510 ≤ b.val

theorem fillSlot_outside {b : Fin 512} (hb : OutsideTable b) :
    x.fillSlot i code startLba count b = x b := by
  have hi := entryAt_lt i
  rw [Sector.fillSlot, Sector.ofMemory, Nat.zero_add, fill_frame, Sector.mbr_apply x b.isLt]
  unfold OutsideTable at hb
  unfold entryAt partitionTableOffset at hi ⊢
  omega

theorem clearSlot_outside {b : Fin 512} (hb : OutsideTable b) : x.clearSlot i b = x b := by
  have hi := entryAt_lt i
  rw [Sector.clearSlot, Sector.ofMemory, Nat.zero_add, clear_frame, Sector.mbr_apply x b.isLt]
  unfold OutsideTable at hb
  unfold entryAt partitionTableOffset at hi ⊢
  omega

/-- The type byte is zero when the type field is. -/
theorem type_eq_zero_iff (m : Memory) (a : ℕ) :
    PartitionEntry.type m a = 0 ↔ partitionEntry.get m a .type = 0 := by
  have hlt := Memory.load_lt m (a + partitionEntry.offset .type) (partitionEntry.size .type)
  change partitionEntry.get m a .type < 256 ^ 1 at hlt
  rw [PartitionEntry.type, ← UInt8.toNat_inj, UInt8.toNat_ofNat']
  change _ % 256 = 0 ↔ _
  omega

theorem slotType_eq_zero_iff : x.slotType i = 0 ↔ (x.table i).type = 0 :=
  type_eq_zero_iff x.mbr (entryAt i)

theorem freeSlot_eq : x.freeSlot = (x.table.freeSlot).map Fin.val := by
  have hrange : List.range 4 = (List.finRange 4).map Fin.val := by decide
  rw [Sector.freeSlot, hrange, List.find?_map, MbrTable.freeSlot]
  congr 2
  funext i
  simp only [Function.comp_apply, slotType_eq_zero_iff]

/-- The slot that is found is the first free entry of the table. -/
theorem exists_entry_of_freeSlot {x : Sector} {i : ℕ} (h : x.freeSlot = some i) :
    ∃ j : Fin 4, j.val = i ∧ x.table.freeSlot = some j ∧ (x.table j).type = 0 := by
  rw [freeSlot_eq, Option.map_eq_some_iff] at h
  obtain ⟨j, hfree, hj⟩ := h
  exact ⟨j, hj, hfree, by simpa using List.find?_some hfree⟩

theorem code_ne_zero (fs : FileSystemType) : fs.code.toNat ≠ 0 := by cases fs <;> decide

/-- Filling a free slot changes the sector. -/
theorem fillSlot_ne {x : Sector} {i : ℕ} (h : x.freeSlot = some i) (fs : FileSystemType)
    (startLba count : UInt32) : x.fillSlot i fs.code startLba count ≠ x := by
  obtain ⟨j, rfl, -, htype⟩ := exists_entry_of_freeSlot h
  intro heq
  have htable := table_fillSlot x j fs.code startLba count
  rw [heq] at htable
  have hentry := congrFun htable j
  rw [Function.update_self] at hentry
  rw [hentry] at htype
  exact code_ne_zero fs htype

end Sector

end EtyOS
