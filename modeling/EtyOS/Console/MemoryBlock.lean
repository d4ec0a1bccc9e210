import EtyOS.Library.ByteMemory

/-!
# The block functions of `memory.c`

Pointers are addresses. `memory_move` and `memory_copy` have the same body: a
forward or a backward byte loop, chosen by the order of the two pointers.
-/

namespace EtyOS.MemoryBlock

open Library

/-- `while (length-- > 0) *d++ = *s++;`. -/
def copyForward (m : Memory) (d s : ℕ) : ℕ → Memory
  | 0 => m
  | length + 1 => copyForward (Function.update m d (m s)) (d + 1) (s + 1) length

/-- `while (length-- > 0) *--d = *--s;`. -/
def copyBackward (m : Memory) (d s : ℕ) : ℕ → Memory
  | 0 => m
  | length + 1 => copyBackward (Function.update m (d - 1) (m (s - 1))) (d - 1) (s - 1) length

/-- The body that `memory_move` and `memory_copy` share. -/
@[irreducible] def copyBlock (m : Memory) (dest src length : ℕ) : Memory :=
  if dest < src then copyForward m dest src length
  else if src < dest then copyBackward m (dest + length) (src + length) length
  else m

def memoryMove (m : Memory) (dest src length : ℕ) : Memory := copyBlock m dest src length

def memoryCopy (m : Memory) (dest src length : ℕ) : Memory := copyBlock m dest src length

def memoryZero (m : Memory) (dest length : ℕ) : Memory := m.fill dest 0 length

/-- A forward loop reads no byte it has written, if it writes below. -/
theorem copyForward_apply (m : Memory) {d s : ℕ} (hds : d ≤ s) (length b : ℕ) :
    copyForward m d s length b = if d ≤ b ∧ b < d + length then m (s + (b - d)) else m b := by
  induction length generalizing m d s with
  | zero => rw [copyForward, if_neg (by omega)]
  | succ length ih =>
    rw [copyForward, ih _ (by omega)]
    by_cases hb : b = d
    · rw [if_neg (by omega), if_pos (by omega), hb, Function.update_self, Nat.sub_self,
        Nat.add_zero]
    · by_cases hin : d + 1 ≤ b ∧ b < d + 1 + length
      · rw [if_pos hin, if_pos (by omega), Function.update_of_ne (by omega)]
        congr 1
        omega
      · rw [if_neg hin, if_neg (by omega), Function.update_of_ne hb]

/-- A backward loop reads no byte it has written, if it writes above. -/
theorem copyBackward_apply (m : Memory) {d s : ℕ} (hsd : s ≤ d) (length b : ℕ) :
    copyBackward m (d + length) (s + length) length b =
      if d ≤ b ∧ b < d + length then m (s + (b - d)) else m b := by
  induction length generalizing m with
  | zero => rw [copyBackward, if_neg (by omega)]
  | succ length ih =>
    have hd : d + (length + 1) - 1 = d + length := by omega
    have hs : s + (length + 1) - 1 = s + length := by omega
    rw [copyBackward, hd, hs, ih]
    by_cases hb : b = d + length
    · rw [if_neg (by omega), if_pos (by omega), hb, Function.update_self]
      congr 1
      omega
    · by_cases hin : d ≤ b ∧ b < d + length
      · rw [if_pos hin, if_pos (by omega), Function.update_of_ne (by omega)]
      · rw [if_neg hin, if_neg (by omega), Function.update_of_ne hb]

/-- Whichever way the blocks overlap, every byte read is an old one. -/
theorem copyBlock_apply (m : Memory) (dest src length b : ℕ) :
    copyBlock m dest src length b =
      if dest ≤ b ∧ b < dest + length then m (src + (b - dest)) else m b := by
  rw [copyBlock]
  rcases Nat.lt_trichotomy dest src with hlt | heq | hgt
  · rw [if_pos hlt, copyForward_apply m hlt.le]
  · rw [if_neg (by omega), if_neg (by omega)]
    split
    · congr 1
      omega
    · rfl
  · rw [if_neg (by omega), if_pos hgt, copyBackward_apply m hgt.le]

theorem memoryMove_apply (m : Memory) (dest src length b : ℕ) :
    memoryMove m dest src length b =
      if dest ≤ b ∧ b < dest + length then m (src + (b - dest)) else m b :=
  copyBlock_apply m dest src length b

/-- Copying a block that holds certain bytes writes these bytes. -/
theorem memoryCopy_eq_write (m : Memory) (dest src : ℕ) (bs : List UInt8)
    (hsrc : ∀ i < bs.length, bs[i]? = some (m (src + i))) :
    memoryCopy m dest src bs.length = m.write dest bs := by
  funext b
  rw [memoryCopy, copyBlock_apply]
  by_cases hb : dest ≤ b ∧ b < dest + bs.length
  · obtain ⟨i, rfl⟩ := Nat.exists_eq_add_of_le hb.1
    rw [if_pos hb, Nat.add_sub_cancel_left, Memory.write_apply, hsrc i (by omega)]
    rfl
  · rw [if_neg hb, Memory.write_frame _ _ (by omega)]

end EtyOS.MemoryBlock
