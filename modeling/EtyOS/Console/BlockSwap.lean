import EtyOS.Console.BlockMoves

/-!
# `memory_swap` and `memory_compare` at 64-bit pointers

`memory_swap` exchanges the bytes of two blocks one pair after the other. On blocks that
overlap a byte can be exchanged twice: the block further up arrives whole in the lower one,
but the bytes behind it go round in the gap between the two. `memory_compare` finds the
order of two blocks as texts of unsigned bytes.
-/

namespace EtyOS.AddressSpace

/-- `temp = *p1; *p1 = *p2; *p2 = temp;`. -/
def exchange (m : AddressSpace) (p1 p2 : UInt64) : AddressSpace :=
  Function.update (Function.update m p1 (m p2)) p2 (m p1)

/-- The loop of `memory_swap`. -/
def memorySwap (m : AddressSpace) (ptr1 ptr2 length : UInt64) : AddressSpace :=
  if 0 < length then memorySwap (m.exchange ptr1 ptr2) (ptr1 + 1) (ptr2 + 1) (length - 1) else m
termination_by length.toNat
decreasing_by exact length_sub_one_lt ‹_›

def memoryCompare (m : AddressSpace) (ptr1 ptr2 length : UInt64) : ℤ :=
  if 0 < length then
    if m ptr1 ≠ m ptr2 then (if m ptr1 > m ptr2 then 1 else -1)
    else memoryCompare m (ptr1 + 1) (ptr2 + 1) (length - 1)
  else 0
termination_by length.toNat
decreasing_by exact length_sub_one_lt ‹_›

/-! ### Bytes behind a pointer -/

section Pointers

variable {p : UInt64} {j k : ℕ}

theorem pointer_inj (hj : j < UInt64.size) (hk : k < UInt64.size) :
    p + UInt64.ofNat j = p + UInt64.ofNat k ↔ j = k := by
  refine ⟨fun h => ?_, fun h => by rw [h]⟩
  have hoffset := congrArg UInt64.toNat ((UInt64.add_right_inj p).mp h)
  rwa [UInt64.toNat_ofNat_of_lt' hj, UInt64.toNat_ofNat_of_lt' hk] at hoffset

theorem pointer_succ (p : UInt64) (k : ℕ) : p + 1 + UInt64.ofNat k = p + UInt64.ofNat (k + 1) := by
  rw [UInt64.ofNat_add, UInt64.add_assoc, UInt64.add_comm 1]
  rfl

theorem pointer_zero (p : UInt64) : p + UInt64.ofNat 0 = p := UInt64.add_zero p

end Pointers

theorem exchange_comm (m : AddressSpace) (p q : UInt64) : m.exchange p q = m.exchange q p := by
  by_cases hpq : p = q
  · rw [hpq]
  · exact Function.update_comm hpq _ _ _

/-- The bytes of an exchange `d` bytes apart. -/
theorem exchange_apply (m : AddressSpace) (p : UInt64) {d k : ℕ} (hd : d < UInt64.size)
    (hk : k < UInt64.size) :
    m.exchange p (p + UInt64.ofNat d) (p + UInt64.ofNat k) =
      m (p + UInt64.ofNat (if k = 0 then d else if k = d then 0 else k)) := by
  rw [exchange]
  by_cases hkd : k = d
  · have hsource : (if d = 0 then d else 0) = 0 := by
      split
      · assumption
      · rfl
    rw [hkd, Function.update_self, if_pos rfl, hsource, pointer_zero]
  · rw [Function.update_of_ne fun h => hkd ((pointer_inj hk hd).mp h), if_neg hkd]
    by_cases hzero : k = 0
    · rw [if_pos hzero, hzero, pointer_zero, Function.update_self]
    · rw [if_neg hzero, Function.update_of_ne]
      intro h
      exact hzero ((pointer_inj hk (by decide)).mp (h.trans (pointer_zero p).symm))

/-- Where the byte at offset `k` of two blocks `d` bytes apart comes from. -/
def swapSource (d n k : ℕ) : ℕ := if k < n then k + d else k % d

theorem swapSource_lt {d n k : ℕ} (hk : k < n + d) : swapSource d n k < n + d := by
  unfold swapSource
  by_cases hin : k < n
  · rw [if_pos hin]
    omega
  · rw [if_neg hin]
    exact Nat.lt_of_lt_of_le (Nat.mod_lt k (by omega)) (Nat.le_add_left d n)

theorem swapSource_succ {d n k : ℕ} (hk : k < n + d) :
    swapSource d (n + 1) (k + 1) =
      if swapSource d n k + 1 = d then 0 else swapSource d n k + 1 := by
  unfold swapSource
  by_cases hin : k < n
  · rw [if_pos hin, if_pos (by omega), if_neg (by omega)]
    omega
  · have hd : 0 < d := by omega
    have hmod : k % d < d := Nat.mod_lt k hd
    rw [if_neg hin, if_neg (by omega), ← Nat.mod_add_mod]
    split
    · rw [‹k % d + 1 = d›, Nat.mod_self]
    · exact Nat.mod_eq_of_lt (by omega)

/-- In two blocks of `n` bytes, `d` bytes apart from `p` on, the bytes are rearranged as
`swapSource` says; bytes outside the two blocks and the gap stay. -/
structure Rotated (m m' : AddressSpace) (p : UInt64) (d n : ℕ) : Prop where
  inside : ∀ k < n + d, m' (p + UInt64.ofNat k) = m (p + UInt64.ofNat (swapSource d n k))
  outside : ∀ a, (∀ k < n + d, a ≠ p + UInt64.ofNat k) → m' a = m a

theorem rotated_memorySwap (m : AddressSpace) (p : UInt64) {d n : ℕ} (hroom : n + d ≤ UInt64.size)
    (hn : n < UInt64.size) :
    m.Rotated (memorySwap m p (p + UInt64.ofNat d) (UInt64.ofNat n)) p d n := by
  induction n generalizing m p with
  | zero =>
    rw [memorySwap, if_neg (by decide)]
    refine ⟨fun k hk => ?_, fun _ _ => rfl⟩
    rw [swapSource, if_neg (Nat.not_lt_zero k), Nat.mod_eq_of_lt (by omega)]
  | succ n ih =>
    have hd : d < UInt64.size := by omega
    have hnext : p + UInt64.ofNat d + 1 = p + 1 + UInt64.ofNat d := by grind
    have hstep := ih (m.exchange p (p + UInt64.ofNat d)) (p + 1) (by omega) (by omega)
    rw [memorySwap, if_pos (zero_lt_ofNat_succ hn), ofNat_succ_sub_one, hnext]
    refine ⟨fun k hk => ?_, fun a ha => ?_⟩
    · cases k with
      | zero =>
        rw [hstep.outside, exchange_apply m p hd (by decide), if_pos rfl, swapSource,
          if_pos n.succ_pos, Nat.zero_add]
        intro k hk' heq
        rw [pointer_succ, pointer_inj (by decide) (by omega)] at heq
        omega
      | succ k =>
        have hk' : k < n + d := by omega
        have hsource : swapSource d n k + 1 < UInt64.size := by
          have hle : swapSource d n k < n + d := swapSource_lt hk'
          omega
        rw [← pointer_succ, hstep.inside k hk', pointer_succ, exchange_apply m p hd hsource,
          if_neg (Nat.succ_ne_zero _), swapSource_succ hk']
    · rw [hstep.outside a fun k hk => ?_, exchange, Function.update_of_ne (ha d (by omega)),
        Function.update_of_ne]
      · have hzero := ha 0 (by omega)
        rwa [pointer_zero] at hzero
      · rw [pointer_succ]
        exact ha _ (by omega)

theorem memorySwap_comm (m : AddressSpace) (p q n : UInt64) :
    memorySwap m p q n = memorySwap m q p n := by
  fun_induction memorySwap m p q n with
  | case1 m p q n hpos ih =>
    rw [ih, exchange_comm]
    conv_rhs => rw [memorySwap, if_pos hpos]
  | case2 m p q n hzero => rw [memorySwap, if_neg hzero]

/-! ### Blocks exchanged -/

/-- Each of two blocks of `n` bytes gets the bytes of the other, and nothing else changes. -/
structure Exchanged (m m' : AddressSpace) (p q : UInt64) (n : ℕ) : Prop where
  first : ∀ k < n, m' (p + UInt64.ofNat k) = m (q + UInt64.ofNat k)
  second : ∀ k < n, m' (q + UInt64.ofNat k) = m (p + UInt64.ofNat k)
  outside : ∀ a, (∀ k < n, a ≠ p + UInt64.ofNat k ∧ a ≠ q + UInt64.ofNat k) → m' a = m a

theorem Exchanged.comm {m m' : AddressSpace} {p q : UInt64} {n : ℕ} (h : Exchanged m m' p q n) :
    Exchanged m m' q p n where
  first := h.second
  second := h.first
  outside a ha := h.outside a fun k hk => (ha k hk).symm

section Exchanged

variable {m m' : AddressSpace} {p : UInt64} {d n : ℕ}

theorem pointer_add (p : UInt64) (d k : ℕ) :
    p + UInt64.ofNat d + UInt64.ofNat k = p + UInt64.ofNat (d + k) := by
  rw [UInt64.ofNat_add, UInt64.add_assoc]

/-- One and the same block, or two that do not overlap. -/
theorem Rotated.exchanged (h : m.Rotated m' p d n) (hfar : d = 0 ∨ n ≤ d) :
    m.Exchanged m' p (p + UInt64.ofNat d) n where
  first k hk := by
    rw [h.inside k (by omega), swapSource, if_pos hk, pointer_add, Nat.add_comm]
  second k hk := by
    have hsource : swapSource d n (d + k) = k := by
      unfold swapSource
      split
      · omega
      · rw [Nat.add_mod_left, Nat.mod_eq_of_lt (by omega)]
    rw [pointer_add, h.inside _ (by omega), hsource]
  outside a ha := by
    by_cases hnear : ∃ k < n + d, a = p + UInt64.ofNat k
    · obtain ⟨k, hk, rfl⟩ := hnear
      have hlow : n ≤ k := not_lt.mp fun hlt => (ha k hlt).1 rfl
      have hhigh : k < d := by
        by_contra hge
        refine (ha (k - d) (by omega)).2 ?_
        rw [pointer_add, Nat.add_sub_cancel' (not_lt.mp hge)]
      rw [h.inside k hk, swapSource, if_neg (by omega), Nat.mod_eq_of_lt hhigh]
    · exact h.outside a fun k hk heq => hnear ⟨k, hk, heq⟩

/-- Where the blocks overlap, the first byte of the upper one does not get the first byte of
the lower one. -/
theorem exchanged_memorySwap_iff (p : UInt64) (hroom : n + d ≤ UInt64.size)
    (hn : n < UInt64.size) :
    (∀ m, Exchanged m (memorySwap m p (p + UInt64.ofNat d) (UInt64.ofNat n)) p
      (p + UInt64.ofNat d) n) ↔ d = 0 ∨ n ≤ d := by
  refine ⟨fun h => ?_, fun hfar m => (rotated_memorySwap m p hroom hn).exchanged hfar⟩
  by_contra hnear
  obtain ⟨hd, hlt⟩ := not_or.mp hnear
  have hpos : 0 < d := Nat.pos_of_ne_zero hd
  have hfirst := (h fun a => if a = p then 1 else 0).second 0 (by omega)
  have hsource : swapSource d n d = d + d := if_pos (not_le.mp hlt)
  have hne : p + UInt64.ofNat (d + d) ≠ p := fun heq =>
    absurd ((pointer_inj (by omega) (by decide)).mp (heq.trans (pointer_zero p).symm)) (by omega)
  rw [pointer_zero, pointer_zero, if_pos rfl, (rotated_memorySwap _ p hroom hn).inside d (by omega),
    hsource, if_neg hne] at hfirst
  exact absurd hfirst (by decide)

end Exchanged

/-- The lower of two pointers, and how far the other one is behind it. -/
def lower (p q : UInt64) : UInt64 := if p ≤ q then p else q
def gap (p q : UInt64) : ℕ := max p.toNat q.toNat - min p.toNat q.toNat

theorem gap_comm (p q : UInt64) : gap p q = gap q p := by
  rw [gap, gap, max_comm, min_comm]

/-- `memory_swap` with the lower block first. -/
theorem rearranges_of_le {p q n : UInt64} (hle : p.toNat ≤ q.toNat)
    (hq : q.toNat + n.toNat ≤ UInt64.size) :
    (∀ m, Rotated m (memorySwap m p q n) p (gap p q) n.toNat) ∧
      ((∀ m, Exchanged m (memorySwap m p q n) p q n.toNat) ↔ p = q ∨ n.toNat ≤ gap p q) := by
  have hgap : gap p q = q.toNat - p.toNat := by
    rw [gap, max_eq_right hle, min_eq_left hle]
  have hupper : p + UInt64.ofNat (gap p q) = q := by
    rw [hgap, UInt64.ofNat_sub hle, UInt64.ofNat_toNat, UInt64.ofNat_toNat]
    grind
  have hroom : n.toNat + gap p q ≤ UInt64.size := by omega
  have hsame : p = q ↔ gap p q = 0 := by
    rw [hgap, ← UInt64.toNat_inj]
    omega
  have hrotated (m : AddressSpace) := rotated_memorySwap m p hroom n.toNat_lt_size
  have hexchanged := exchanged_memorySwap_iff p hroom n.toNat_lt_size
  rw [hupper, UInt64.ofNat_toNat] at hexchanged
  simp only [hupper, UInt64.ofNat_toNat] at hrotated
  rw [hsame]
  exact ⟨hrotated, hexchanged⟩

/-- For all blocks in memory: `memory_swap` rearranges the bytes of the two blocks and the gap
as `swapSource` says, and it exchanges the blocks, whatever they hold, just when they are one
block or do not overlap. -/
theorem memory_swap_rearranges {p q n : UInt64} (hp : p.toNat + n.toNat ≤ UInt64.size)
    (hq : q.toNat + n.toNat ≤ UInt64.size) :
    (∀ m, Rotated m (memorySwap m p q n) (lower p q) (gap p q) n.toNat) ∧
      ((∀ m, Exchanged m (memorySwap m p q n) p q n.toNat) ↔ p = q ∨ n.toNat ≤ gap p q) := by
  rw [lower]
  by_cases hle : p ≤ q
  · rw [if_pos hle]
    exact rearranges_of_le (UInt64.le_iff_toNat_le.mp hle) hq
  · obtain ⟨hrotated, hexchanged⟩ :=
      rearranges_of_le (p := q) (q := p) (not_le.mp (mt UInt64.le_iff_toNat_le.mpr hle)).le hp
    rw [if_neg hle, gap_comm p q, eq_comm, ← hexchanged]
    refine ⟨fun m => ?_, forall_congr' fun m => ?_⟩
    · rw [memorySwap_comm]
      exact hrotated m
    · rw [memorySwap_comm]
      exact ⟨Exchanged.comm, Exchanged.comm⟩

/-- Four bytes and the four bytes from the second of them on, at the end of memory. -/
theorem memory_swap_rearranges_overlap :
    (∀ m, Rotated m (memorySwap m 0xFFFFFFFFFFFFFFFB 0xFFFFFFFFFFFFFFFC 4)
        (lower 0xFFFFFFFFFFFFFFFB 0xFFFFFFFFFFFFFFFC)
        (gap 0xFFFFFFFFFFFFFFFB 0xFFFFFFFFFFFFFFFC) 4) ∧
      ((∀ m, Exchanged m (memorySwap m 0xFFFFFFFFFFFFFFFB 0xFFFFFFFFFFFFFFFC 4)
          0xFFFFFFFFFFFFFFFB 0xFFFFFFFFFFFFFFFC 4) ↔
        (0xFFFFFFFFFFFFFFFB : UInt64) = 0xFFFFFFFFFFFFFFFC ∨
          4 ≤ gap 0xFFFFFFFFFFFFFFFB 0xFFFFFFFFFFFFFFFC) :=
  memory_swap_rearranges (n := 4) (by decide) (by decide)

/-! ### The order of two blocks -/

/-- The `n` bytes from `p` on. -/
def block (m : AddressSpace) (p : UInt64) : ℕ → List UInt8
  | 0 => []
  | n + 1 => m p :: block m (p + 1) n

section Compare

variable {m m' : AddressSpace} {n : ℕ}

theorem memoryCompare_succ (m : AddressSpace) (p q : UInt64) (hn : n + 1 < UInt64.size) :
    memoryCompare m p q (UInt64.ofNat (n + 1)) =
      if m p ≠ m q then (if m p > m q then 1 else -1)
      else memoryCompare m (p + 1) (q + 1) (UInt64.ofNat n) := by
  rw [memoryCompare, if_pos (zero_lt_ofNat_succ hn), ofNat_succ_sub_one]

theorem memoryCompare_zero (m : AddressSpace) (p q : UInt64) :
    memoryCompare m p q (UInt64.ofNat 0) = 0 := by
  rw [memoryCompare, if_neg (by decide)]

theorem memoryCompare_neg_iff (m : AddressSpace) (p q : UInt64) (hn : n < UInt64.size) :
    memoryCompare m p q (UInt64.ofNat n) < 0 ↔ block m p n < block m q n := by
  induction n generalizing p q with
  | zero =>
    rw [memoryCompare_zero]
    exact iff_of_false (lt_irrefl 0) (List.lt_irrefl [])
  | succ n ih =>
    rw [memoryCompare_succ m p q hn, block, block, List.cons_lt_cons_iff]
    by_cases heq : m p = m q
    · rw [if_neg (not_not.mpr heq), ih _ _ (by omega)]
      simp [heq]
    · rw [if_pos heq]
      by_cases hgt : m p > m q
      · rw [if_pos hgt]
        simp [heq, UInt8.le_of_lt hgt]
      · rw [if_neg hgt]
        simp [UInt8.lt_of_le_of_ne (UInt8.not_lt.mp hgt) heq]

theorem memoryCompare_eq_zero_iff (m : AddressSpace) (p q : UInt64) (hn : n < UInt64.size) :
    memoryCompare m p q (UInt64.ofNat n) = 0 ↔ block m p n = block m q n := by
  induction n generalizing p q with
  | zero =>
    rw [memoryCompare_zero]
    exact iff_of_true rfl rfl
  | succ n ih =>
    rw [memoryCompare_succ m p q hn, block, block, List.cons.injEq]
    by_cases heq : m p = m q
    · rw [if_neg (not_not.mpr heq), ih _ _ (by omega)]
      simp [heq]
    · rw [if_pos heq]
      split <;> simp [heq]

theorem memoryCompare_antisymm (m : AddressSpace) (p q : UInt64) (hn : n < UInt64.size) :
    memoryCompare m q p (UInt64.ofNat n) = -memoryCompare m p q (UInt64.ofNat n) := by
  induction n generalizing p q with
  | zero => rw [memoryCompare_zero, memoryCompare_zero, neg_zero]
  | succ n ih =>
    rw [memoryCompare_succ m p q hn, memoryCompare_succ m q p hn]
    by_cases heq : m p = m q
    · rw [if_neg (not_not.mpr heq), if_neg (not_not.mpr heq.symm), ih _ _ (by omega)]
    · rw [if_pos heq, if_pos (Ne.symm heq)]
      by_cases hgt : m p > m q
      · rw [if_pos hgt, if_neg (UInt8.not_lt.mpr (UInt8.le_of_lt hgt))]
      · rw [if_neg hgt, if_pos (UInt8.lt_of_le_of_ne (UInt8.not_lt.mp hgt) heq), neg_neg]

/-- The comparison of two blocks whose bytes lie somewhere else. -/
theorem memoryCompare_congr {p q p' q' : UInt64} (hn : n < UInt64.size)
    (hp : ∀ k < n, m' (p + UInt64.ofNat k) = m (p' + UInt64.ofNat k))
    (hq : ∀ k < n, m' (q + UInt64.ofNat k) = m (q' + UInt64.ofNat k)) :
    memoryCompare m' p q (UInt64.ofNat n) = memoryCompare m p' q' (UInt64.ofNat n) := by
  induction n generalizing p q p' q' with
  | zero => rw [memoryCompare_zero, memoryCompare_zero]
  | succ n ih =>
    have hp₀ := hp 0 n.succ_pos
    have hq₀ := hq 0 n.succ_pos
    rw [pointer_zero, pointer_zero] at hp₀ hq₀
    rw [memoryCompare_succ m' p q hn, memoryCompare_succ m p' q' hn, hp₀, hq₀,
      ih (by omega) (fun k hk => ?_) fun k hk => ?_]
    · rw [pointer_succ, pointer_succ]
      exact hp _ (Nat.succ_lt_succ hk)
    · rw [pointer_succ, pointer_succ]
      exact hq _ (Nat.succ_lt_succ hk)

end Compare

/-- Blocks in memory that are one block or do not overlap are exchanged. -/
theorem exchanged_of_apart (m : AddressSpace) {p q n : UInt64}
    (hp : p.toNat + n.toNat ≤ UInt64.size) (hq : q.toNat + n.toNat ≤ UInt64.size)
    (hfar : p = q ∨ n.toNat ≤ gap p q) : Exchanged m (memorySwap m p q n) p q n.toNat := by
  rcases Nat.le_total p.toNat q.toNat with hle | hle
  · exact (rearranges_of_le hle hq).2.mpr hfar m
  · rw [gap_comm, eq_comm] at hfar
    rw [memorySwap_comm]
    exact ((rearranges_of_le hle hp).2.mpr hfar m).comm

/-- `memory_compare` is the lexicographic order of any two blocks as texts of unsigned bytes,
whether they overlap or not, and `memory_swap` on blocks that it exchanges turns the result
round. -/
theorem memory_compare_orders (m : AddressSpace) (p q n : UInt64) :
    (memoryCompare m p q n < 0 ↔ block m p n.toNat < block m q n.toNat) ∧
      (memoryCompare m p q n = 0 ↔ block m p n.toNat = block m q n.toNat) ∧
      (0 < memoryCompare m p q n ↔ block m q n.toNat < block m p n.toNat) ∧
      (p.toNat + n.toNat ≤ UInt64.size → q.toNat + n.toNat ≤ UInt64.size →
        (p = q ∨ n.toNat ≤ gap p q) →
          memoryCompare (memorySwap m p q n) p q n = -memoryCompare m p q n) := by
  have hn := n.toNat_lt_size
  have hback := memoryCompare_antisymm m p q hn
  have hneg := memoryCompare_neg_iff m p q hn
  have hzero := memoryCompare_eq_zero_iff m p q hn
  have hpos := memoryCompare_neg_iff m q p hn
  rw [hback, neg_lt_zero] at hpos
  rw [UInt64.ofNat_toNat] at hback hneg hzero hpos
  refine ⟨hneg, hzero, hpos, fun hp hq hfar => ?_⟩
  have hexchanged := exchanged_of_apart m hp hq hfar
  have hswap := memoryCompare_congr hn hexchanged.first hexchanged.second
  rw [UInt64.ofNat_toNat] at hswap
  exact hswap.trans hback

/-- The bytes 1, 2, 3 come before the bytes 2, 3, 4, which overlap them, and the bytes 4, 5, 6
change places with them. -/
theorem memory_compare_orders_overlapping :
    memoryCompare UInt64.toUInt8 1 2 3 < 0 ∧
      memoryCompare (memorySwap UInt64.toUInt8 1 4 3) 1 4 3 =
        -memoryCompare UInt64.toUInt8 1 4 3 := by
  have hover := memory_compare_orders UInt64.toUInt8 1 2 3
  have hapart := memory_compare_orders UInt64.toUInt8 1 4 3
  exact ⟨hover.1.mpr (by decide),
    hapart.2.2.2 (by decide) (by decide) (Or.inr (by decide))⟩

end EtyOS.AddressSpace
