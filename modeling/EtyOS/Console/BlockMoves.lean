import EtyOS.Console.MemoryBlock

/-!
# Block moves at 64-bit pointers

The loops of `memory_move` and `memory_copy` with the pointers and the `size_t`
that the code has: the pointer behind the last byte of memory is 0. With both
blocks inside memory they do what the loops on unbounded addresses do, so every
byte of the destination is the old byte of the source, however the blocks lie.
-/

namespace EtyOS

open Library

/-- A byte for every 64-bit pointer. -/
abbrev AddressSpace := UInt64 → UInt8

namespace AddressSpace

theorem length_sub_one_lt {length : UInt64} (hpos : 0 < length) :
    (length - 1).toNat < length.toNat := by
  have hlength : 0 < length.toNat := UInt64.lt_iff_toNat_lt.mp hpos
  have hle : (1 : UInt64) ≤ length := UInt64.le_iff_toNat_le.mpr hlength
  rw [UInt64.toNat_sub_of_le _ _ hle]
  exact Nat.sub_lt hlength Nat.one_pos

/-- `while (length-- > 0) *d++ = *s++;`. -/
def copyForward (m : AddressSpace) (d s length : UInt64) : AddressSpace :=
  if 0 < length then copyForward (Function.update m d (m s)) (d + 1) (s + 1) (length - 1) else m
termination_by length.toNat
decreasing_by exact length_sub_one_lt ‹_›

/-- `while (length-- > 0) *--d = *--s;`. -/
def copyBackward (m : AddressSpace) (d s length : UInt64) : AddressSpace :=
  if 0 < length then
    copyBackward (Function.update m (d - 1) (m (s - 1))) (d - 1) (s - 1) (length - 1)
  else m
termination_by length.toNat
decreasing_by exact length_sub_one_lt ‹_›

def memoryMove (m : AddressSpace) (dest src length : UInt64) : AddressSpace :=
  if dest < src then copyForward m dest src length
  else if dest > src then copyBackward m (dest + length) (src + length) length
  else m

def memoryCopy (m : AddressSpace) (dest src length : UInt64) : AddressSpace :=
  if dest < src then copyForward m dest src length
  else if dest > src then copyBackward m (dest + length) (src + length) length
  else m

/-- The two functions have one body. -/
theorem memoryCopy_eq (m : AddressSpace) (dest src length : UInt64) :
    memoryCopy m dest src length = memoryMove m dest src length := rfl

/-! ### The unbounded addresses -/

/-- The bytes of `m` as the unbounded memory holds them. -/
def Represents (m : AddressSpace) (M : Memory) : Prop :=
  ∀ a < UInt64.size, M a = m (UInt64.ofNat a)

/-- The unbounded memory with the same bytes at the pointers, zero behind them. -/
def toMemory (m : AddressSpace) : Memory :=
  fun a => if a < UInt64.size then m (UInt64.ofNat a) else 0

theorem represents_toMemory (m : AddressSpace) : m.Represents m.toMemory :=
  fun _ ha => if_pos ha

theorem Represents.apply {m : AddressSpace} {M : Memory} (h : m.Represents M) (p : UInt64) :
    M p.toNat = m p := by
  rw [h p.toNat p.toNat_lt_size, UInt64.ofNat_toNat]

/-- One byte moved keeps the two memories alike. -/
theorem Represents.update {m : AddressSpace} {M : Memory} (h : m.Represents M) {d s : ℕ}
    (hd : d < UInt64.size) (hs : s < UInt64.size) :
    Represents (Function.update m (UInt64.ofNat d) (m (UInt64.ofNat s)))
      (Function.update M d (M s)) := by
  intro a ha
  by_cases had : a = d
  · rw [had, Function.update_self, Function.update_self, h s hs]
  · have hne : UInt64.ofNat a ≠ UInt64.ofNat d := by
      intro heq
      have htoNat := congrArg UInt64.toNat heq
      rw [UInt64.toNat_ofNat_of_lt' ha, UInt64.toNat_ofNat_of_lt' hd] at htoNat
      exact had htoNat
    rw [Function.update_of_ne had, Function.update_of_ne hne, h a ha]

theorem ofNat_succ_sub_one (n : ℕ) : UInt64.ofNat (n + 1) - 1 = UInt64.ofNat n := by
  rw [UInt64.ofNat_add]
  exact UInt64.add_sub_cancel _ _

theorem zero_lt_ofNat_succ {n : ℕ} (hn : n + 1 < UInt64.size) : 0 < UInt64.ofNat (n + 1) := by
  rw [UInt64.lt_iff_toNat_lt, UInt64.toNat_ofNat_of_lt' hn]
  exact Nat.succ_pos n

/-- Going up, the pointers stay the addresses: only behind the last byte they wrap. -/
theorem Represents.copyForward {n : ℕ} (hn : n < UInt64.size) {m : AddressSpace} {M : Memory}
    (h : m.Represents M) {d s : ℕ} (hd : d + n ≤ UInt64.size) (hs : s + n ≤ UInt64.size) :
    Represents (copyForward m (UInt64.ofNat d) (UInt64.ofNat s) (UInt64.ofNat n))
      (MemoryBlock.copyForward M d s n) := by
  induction n generalizing m M d s with
  | zero =>
    rw [AddressSpace.copyForward, if_neg (by decide), MemoryBlock.copyForward]
    exact h
  | succ n ih =>
    rw [AddressSpace.copyForward, if_pos (zero_lt_ofNat_succ hn), MemoryBlock.copyForward,
      ofNat_succ_sub_one]
    have hstep := ih (by omega) (h.update (d := d) (s := s) (by omega) (by omega))
      (d := d + 1) (s := s + 1) (by omega) (by omega)
    rw [UInt64.ofNat_add, UInt64.ofNat_add] at hstep
    exact hstep

/-- Going down, both loops start behind the last byte. -/
theorem Represents.copyBackward {n : ℕ} (hn : n < UInt64.size) {m : AddressSpace} {M : Memory}
    (h : m.Represents M) {d s : ℕ} (hd : d + n ≤ UInt64.size) (hs : s + n ≤ UInt64.size) :
    Represents (copyBackward m (UInt64.ofNat (d + n)) (UInt64.ofNat (s + n)) (UInt64.ofNat n))
      (MemoryBlock.copyBackward M (d + n) (s + n) n) := by
  induction n generalizing m M with
  | zero =>
    rw [AddressSpace.copyBackward, if_neg (by decide), MemoryBlock.copyBackward]
    exact h
  | succ n ih =>
    have hd' : d + (n + 1) - 1 = d + n := by omega
    have hs' : s + (n + 1) - 1 = s + n := by omega
    rw [AddressSpace.copyBackward, if_pos (zero_lt_ofNat_succ hn), MemoryBlock.copyBackward,
      ofNat_succ_sub_one, ← Nat.add_assoc d, ← Nat.add_assoc s, ofNat_succ_sub_one,
      ofNat_succ_sub_one, Nat.add_sub_cancel, Nat.add_sub_cancel]
    exact ih (by omega) (h.update (by omega) (by omega)) (by omega) (by omega)

/-- With both blocks inside memory the code moves what the unbounded loops move. -/
theorem Represents.memoryMove {m : AddressSpace} {M : Memory} (h : m.Represents M)
    {dest src length : UInt64} (hdest : dest.toNat + length.toNat ≤ UInt64.size)
    (hsrc : src.toNat + length.toNat ≤ UInt64.size) :
    Represents (memoryMove m dest src length)
      (MemoryBlock.memoryMove M dest.toNat src.toNat length.toNat) := by
  rw [AddressSpace.memoryMove, MemoryBlock.memoryMove, MemoryBlock.copyBlock]
  rcases Nat.lt_trichotomy dest.toNat src.toNat with hlt | heq | hgt
  · rw [if_pos (UInt64.lt_iff_toNat_lt.mpr hlt), if_pos hlt]
    have hloop := h.copyForward length.toNat_lt_size hdest hsrc
    rw [UInt64.ofNat_toNat, UInt64.ofNat_toNat, UInt64.ofNat_toNat] at hloop
    exact hloop
  · rw [if_neg (by rw [UInt64.lt_iff_toNat_lt]; omega),
      if_neg (by rw [gt_iff_lt, UInt64.lt_iff_toNat_lt]; omega), if_neg (by omega),
      if_neg (by omega)]
    exact h
  · rw [if_neg (by rw [UInt64.lt_iff_toNat_lt]; omega),
      if_pos (UInt64.lt_iff_toNat_lt.mpr hgt), if_neg (by omega), if_pos hgt]
    have hloop := h.copyBackward length.toNat_lt_size hdest hsrc
    rw [UInt64.ofNat_add, UInt64.ofNat_add, UInt64.ofNat_toNat, UInt64.ofNat_toNat,
      UInt64.ofNat_toNat] at hloop
    exact hloop

/-- Every byte after a move: an old byte of the source, or the old one. -/
theorem memoryMove_apply (m : AddressSpace) {dest src length : UInt64}
    (hdest : dest.toNat + length.toNat ≤ UInt64.size)
    (hsrc : src.toNat + length.toNat ≤ UInt64.size) (p : UInt64) :
    memoryMove m dest src length p =
      if dest ≤ p ∧ p.toNat < dest.toNat + length.toNat then m (src + (p - dest)) else m p := by
  rw [← (m.represents_toMemory.memoryMove hdest hsrc).apply p, MemoryBlock.memoryMove_apply]
  by_cases hp : dest.toNat ≤ p.toNat ∧ p.toNat < dest.toNat + length.toNat
  · rw [if_pos hp, if_pos ⟨UInt64.le_iff_toNat_le.mpr hp.1, hp.2⟩,
      m.represents_toMemory _ (by omega), UInt64.ofNat_add, UInt64.ofNat_toNat,
      UInt64.ofNat_sub hp.1, UInt64.ofNat_toNat, UInt64.ofNat_toNat]
  · rw [if_neg hp, if_neg (fun h => hp ⟨UInt64.le_iff_toNat_le.mp h.1, h.2⟩),
      m.represents_toMemory.apply]

/-! ### Overlapping blocks -/

/-- `m'` has the bytes that `m` has from `src` at `dest`, and is `m` elsewhere. -/
structure Moved (m m' : AddressSpace) (dest src length : UInt64) : Prop where
  inside : ∀ i < length, m' (dest + i) = m (src + i)
  outside : ∀ p, (∀ i < length, p ≠ dest + i) → m' p = m p

theorem moved_memoryMove (m : AddressSpace) {dest src length : UInt64}
    (hdest : dest.toNat + length.toNat ≤ UInt64.size)
    (hsrc : src.toNat + length.toNat ≤ UInt64.size) :
    m.Moved (memoryMove m dest src length) dest src length where
  inside i hi := by
    have hlt : i.toNat < length.toNat := UInt64.lt_iff_toNat_lt.mp hi
    have hadd : (dest + i).toNat = dest.toNat + i.toNat := by
      rw [UInt64.toNat_add]
      exact Nat.mod_eq_of_lt (Nat.lt_of_lt_of_le (Nat.add_lt_add_left hlt _) hdest)
    have hle : dest ≤ dest + i := UInt64.le_iff_toNat_le.mpr (by omega)
    have hback : dest + i - dest = i := by rw [UInt64.add_comm, UInt64.add_sub_cancel]
    rw [memoryMove_apply m hdest hsrc, if_pos ⟨hle, by omega⟩, hback]
  outside p hp := by
    rw [memoryMove_apply m hdest hsrc, if_neg]
    rintro ⟨hle, hlt⟩
    have hsub : (p - dest).toNat = p.toNat - dest.toNat := UInt64.toNat_sub_of_le _ _ hle
    have hoff : p - dest < length := UInt64.lt_iff_toNat_lt.mpr (by
      have := UInt64.le_iff_toNat_le.mp hle
      omega)
    exact hp (p - dest) hoff (by rw [UInt64.add_comm, UInt64.sub_add_cancel])

/-- Blocks may be disjoint, equal or overlap either way: the block arrives whole. -/
theorem overlapping_moves (m : AddressSpace) {dest src length : UInt64}
    (hdest : dest.toNat + length.toNat ≤ UInt64.size)
    (hsrc : src.toNat + length.toNat ≤ UInt64.size) :
    m.Moved (memoryMove m dest src length) dest src length ∧
      m.Moved (memoryCopy m dest src length) dest src length := by
  rw [memoryCopy_eq]
  exact ⟨moved_memoryMove m hdest hsrc, moved_memoryMove m hdest hsrc⟩

/-- Three bytes moved up by one, onto the last byte of memory. -/
theorem overlapping_moves_up :
    Moved UInt64.toUInt8 (memoryMove UInt64.toUInt8 0xFFFFFFFFFFFFFFFD 0xFFFFFFFFFFFFFFFC 3)
        0xFFFFFFFFFFFFFFFD 0xFFFFFFFFFFFFFFFC 3 ∧
      Moved UInt64.toUInt8 (memoryCopy UInt64.toUInt8 0xFFFFFFFFFFFFFFFD 0xFFFFFFFFFFFFFFFC 3)
        0xFFFFFFFFFFFFFFFD 0xFFFFFFFFFFFFFFFC 3 :=
  overlapping_moves UInt64.toUInt8 (by decide) (by decide)

end AddressSpace

end EtyOS
