import EtyOS.Library.Paging

/-!
# The page tables of the boot code

`setup_page_tables` of `main.asm`, instruction by instruction on the registers it
uses. The tables it leaves are zero but for one entry in each of the upper two
and 512 large pages, so a walk maps the first gigabyte to itself and nothing else.
-/

namespace EtyOS

open Library Paging

/-- The registers of the boot code; the addresses of stores are physical. -/
structure Cpu where
  eax : UInt32
  ecx : UInt32
  edx : UInt32
  memory : Memory

namespace Cpu

def movEax (s : Cpu) (v : UInt32) : Cpu := { s with eax := v }

def movEcx (s : Cpu) (v : UInt32) : Cpu := { s with ecx := v }

def orEax (s : Cpu) (v : UInt32) : Cpu := { s with eax := s.eax ||| v }

def incEcx (s : Cpu) : Cpu := { s with ecx := s.ecx + 1 }

/-- `mul ecx`: the product goes to `edx:eax`. -/
def mulEcx (s : Cpu) : Cpu :=
  let product := s.eax.toUInt64 * s.ecx.toUInt64
  { s with eax := product.toUInt32, edx := (product >>> 32).toUInt32 }

/-- `mov [a], eax`. -/
def storeEax (s : Cpu) (a : UInt32) : Cpu :=
  { s with memory := s.memory.store a.toNat 4 s.eax.toNat }

section Updates

variable (s : Cpu) (v a : UInt32)

@[simp] theorem movEax_eax : (s.movEax v).eax = v := rfl

@[simp] theorem movEax_memory : (s.movEax v).memory = s.memory := rfl

@[simp] theorem movEcx_memory : (s.movEcx v).memory = s.memory := rfl

@[simp] theorem orEax_eax : (s.orEax v).eax = s.eax ||| v := rfl

@[simp] theorem orEax_memory : (s.orEax v).memory = s.memory := rfl

@[simp] theorem storeEax_memory :
    (s.storeEax a).memory = s.memory.store a.toNat 4 s.eax.toNat := rfl

end Updates

end Cpu

/-- The tables in `.bss`: three pages in a row, aligned and below 4 GiB. -/
structure BootTables where
  pageTableL4 : UInt32
  aligned : pageTableL4.toNat % 4096 = 0
  below : pageTableL4.toNat + 3 * 4096 ≤ 2 ^ 32

namespace BootTables

variable (t : BootTables)

def pageTableL3 : UInt32 := t.pageTableL4 + 4096

def pageTableL2 : UInt32 := t.pageTableL4 + 8192

/-- The instructions from `.loop` up to the comparison. -/
def mapEntry (s : Cpu) : Cpu :=
  let s := s.movEax 0x200000
  let s := s.mulEcx
  let s := s.orEax 0b10000011
  let s := s.storeEax (t.pageTableL2 + s.ecx * 8)
  s.incEcx

theorem mapEntry_ecx (s : Cpu) : (t.mapEntry s).ecx = s.ecx + 1 := rfl

theorem mapLoop_decreases {c : UInt32} (h : c + 1 ≠ 512) :
    (511 - (c + 1)).toNat < (511 - c).toNat := by
  have hne : 511 - c ≠ 0 := by
    intro heq
    have hc : c = 511 := by grind
    rw [hc] at h
    exact h rfl
  have hsub : 511 - (c + 1) = 511 - c - 1 := by grind
  have hpos : 0 < (511 - c).toNat :=
    Nat.pos_of_ne_zero fun h0 => hne (UInt32.toNat_inj.mp h0)
  have hle : 1 ≤ 511 - c := UInt32.le_iff_toNat_le.mpr hpos
  rw [hsub, UInt32.toNat_sub_of_le _ _ hle]
  exact Nat.sub_lt hpos Nat.one_pos

/-- `.loop`, which ends when `ecx` has come to 512. -/
def mapLoop (s : Cpu) : Cpu :=
  if (t.mapEntry s).ecx ≠ 512 then mapLoop (t.mapEntry s) else t.mapEntry s
termination_by (511 - s.ecx).toNat
decreasing_by exact mapLoop_decreases ‹_›

/-- The instructions of `setup_page_tables` before `.loop`. -/
def setupUpperTables (s : Cpu) : Cpu :=
  let s := s.movEax t.pageTableL3
  let s := s.orEax 0b11
  let s := s.storeEax t.pageTableL4
  let s := s.movEax t.pageTableL2
  let s := s.orEax 0b11
  let s := s.storeEax t.pageTableL3
  s.movEcx 0

def setupPageTables (s : Cpu) : Cpu := t.mapLoop (t.setupUpperTables s)

/-! ### The loop -/

theorem pageTableL3_toNat : t.pageTableL3.toNat = t.pageTableL4.toNat + 4096 := by
  have hbelow := t.below
  rw [pageTableL3, UInt32.toNat_add]
  exact Nat.mod_eq_of_lt (by simp only [UInt32.reduceToNat]; omega)

theorem pageTableL2_toNat : t.pageTableL2.toNat = t.pageTableL4.toNat + 8192 := by
  have hbelow := t.below
  rw [pageTableL2, UInt32.toNat_add]
  exact Nat.mod_eq_of_lt (by simp only [UInt32.reduceToNat]; omega)

/-- The entry of a large page at `i * 2^21`. -/
def largePage (i : ℕ) : ℕ := i * 2 ^ 21 + 0b10000011

/-- The first `i` entries are mapped, the others still zero, and the memory around the
table is that of `m`. -/
structure Mapped (m : Memory) (i : ℕ) (s : Cpu) : Prop where
  ecx : s.ecx.toNat = i
  mapped : ∀ j < i, s.memory.load (t.pageTableL2.toNat + j * 8) 8 = largePage j
  zero : ∀ j, i ≤ j → j < 512 → s.memory.load (t.pageTableL2.toNat + j * 8) 8 = 0
  outside : ∀ a, a < t.pageTableL2.toNat ∨ t.pageTableL2.toNat + 4096 ≤ a → s.memory a = m a

/-- Flags below the alignment of an address are added by an `or`. -/
theorem toNat_or_flags {x flags : UInt32} (k : ℕ) (hx : x.toNat % 2 ^ k = 0)
    (hflags : flags.toNat < 2 ^ k) : (x ||| flags).toNat = x.toNat + flags.toNat := by
  have hor := Nat.two_pow_add_eq_or_of_lt hflags (x.toNat / 2 ^ k)
  rw [Nat.mul_div_cancel' (Nat.dvd_of_mod_eq_zero hx)] at hor
  rw [UInt32.toNat_or, hor]

theorem product_toNat {c : UInt32} (hc : c.toNat < 512) :
    ((0x200000 : UInt32).toUInt64 * c.toUInt64).toUInt32.toNat = c.toNat * 2 ^ 21 := by
  rw [UInt64.toNat_toUInt32, UInt64.toNat_mul, UInt32.toNat_toUInt64, UInt32.toNat_toUInt64]
  simp only [UInt32.reduceToNat]
  omega

/-- One turn of the loop stores the low half of one entry; the high half stays zero. -/
theorem mapEntry_memory {s : Cpu} (hc : s.ecx.toNat < 512) :
    (t.mapEntry s).memory =
      s.memory.store (t.pageTableL2.toNat + s.ecx.toNat * 8) 4 (largePage s.ecx.toNat) := by
  have hbelow := t.below
  have hl2 := t.pageTableL2_toNat
  have haddr : (t.pageTableL2 + s.ecx * 8).toNat = t.pageTableL2.toNat + s.ecx.toNat * 8 := by
    rw [UInt32.toNat_add, UInt32.toNat_mul]
    simp only [UInt32.reduceToNat]
    omega
  have hproduct := product_toNat hc
  have hflags := toNat_or_flags 21 (by rw [hproduct]; exact Nat.mul_mod_left _ _)
    (show (0b10000011 : UInt32).toNat < 2 ^ 21 by decide)
  rw [hproduct] at hflags
  change s.memory.store (t.pageTableL2 + s.ecx * 8).toNat 4
    (((0x200000 : UInt32).toUInt64 * s.ecx.toUInt64).toUInt32 ||| 0b10000011).toNat = _
  rw [haddr, hflags]
  rfl

/-- A 32-bit store into an entry that was zero. -/
theorem load_entry_store {m : Memory} {a v : ℕ} (hzero : m.load a 8 = 0) (hv : v < 2 ^ 32) :
    (m.store a 4 v).load a 8 = v := by
  have hparts : m.load a 8 = m.load a 4 + 256 ^ 4 * m.load (a + 4) 4 := m.load_add a 4 4
  have hhigh : m.load (a + 4) 4 = 0 := by omega
  rw [Memory.load_add _ a 4 4, Memory.load_store_of_lt m (by omega),
    Memory.load_store_disjoint m v (by omega), hhigh]
  omega

variable {t} {m : Memory} {i : ℕ} {s : Cpu}

theorem Mapped.step (h : t.Mapped m i s) (hi : i < 512) : t.Mapped m (i + 1) (t.mapEntry s) := by
  have hbound : largePage i < 2 ^ 32 := by
    unfold largePage
    omega
  have hmemory : (t.mapEntry s).memory =
      s.memory.store (t.pageTableL2.toNat + i * 8) 4 (largePage i) := by
    rw [t.mapEntry_memory (h.ecx.trans_lt hi), h.ecx]
  refine ⟨?_, ?_, ?_, ?_⟩
  · rw [mapEntry_ecx, UInt32.toNat_add, h.ecx]
    simp only [UInt32.reduceToNat]
    omega
  · intro j hj
    rw [hmemory]
    rcases Nat.lt_succ_iff_lt_or_eq.mp hj with hlt | rfl
    · rw [Memory.load_store_disjoint _ _ (by omega)]
      exact h.mapped j hlt
    · exact load_entry_store (h.zero j le_rfl hi) hbound
  · intro j hj hj'
    rw [hmemory, Memory.load_store_disjoint _ _ (by omega)]
    exact h.zero j (by omega) hj'
  · intro a ha
    rw [hmemory, Memory.store_frame _ _ (by omega)]
    exact h.outside a ha

theorem Mapped.ecx_eq_iff (h : t.Mapped m i s) : s.ecx = 512 ↔ i = 512 := by
  rw [← h.ecx, ← UInt32.toNat_inj]
  rfl

theorem mapLoop_last (h : (t.mapEntry s).ecx = 512) : t.mapLoop s = t.mapEntry s := by
  rewrite [mapLoop.eq_def]
  exact if_neg (not_not.mpr h)

theorem mapLoop_more (h : (t.mapEntry s).ecx ≠ 512) : t.mapLoop s = t.mapLoop (t.mapEntry s) := by
  rewrite [mapLoop.eq_def]
  exact if_pos h

/-- With `left` turns after this one the loop goes on to the last entry. -/
theorem Mapped.mapLoop (h : t.Mapped m i s) {left : ℕ} (hleft : i + left = 511) :
    t.Mapped m 512 (t.mapLoop s) := by
  have hi : i < 512 := by omega
  induction left generalizing i s with
  | zero =>
    have hstep := h.step hi
    have hi' : i + 1 = 512 := by omega
    rw [mapLoop_last (hstep.ecx_eq_iff.mpr hi')]
    exact hi' ▸ hstep
  | succ left ih =>
    have hstep := h.step hi
    have hi' : i + 1 ≠ 512 := by omega
    rw [mapLoop_more (mt hstep.ecx_eq_iff.mp hi')]
    exact ih hstep (by omega) (by omega)

/-! ### The tables -/

/-- The three tables are zero, as `.bss` is. -/
def Zeroed (t : BootTables) (m : Memory) : Prop :=
  ∀ a, t.pageTableL4.toNat ≤ a → a < t.pageTableL4.toNat + 3 * 4096 → m a = 0

/-- A table with `entry` in its first place and nothing else. -/
def HoldsFirst (m : Memory) (table entry : ℕ) : Prop :=
  ∀ j < 512, m.load (table + j * 8) 8 = if j = 0 then entry else 0

theorem holdsFirst_store {table entry : ℕ} (hentry : entry < 2 ^ 32)
    (hzero : ∀ a, table ≤ a → a < table + 4096 → m a = 0) :
    HoldsFirst (m.store table 4 entry) table entry := by
  intro j hj
  have hload : m.load (table + j * 8) 8 = 0 :=
    Memory.load_eq_zero fun b hb hb' => hzero b (by omega) (by omega)
  by_cases hj0 : j = 0
  · rw [if_pos hj0]
    rw [hj0, Nat.zero_mul, Nat.add_zero] at hload ⊢
    exact load_entry_store hload hentry
  · rw [if_neg hj0, Memory.load_store_disjoint _ _ (by omega)]
    exact hload

theorem HoldsFirst.congr {m' : Memory} {table entry : ℕ} (h : HoldsFirst m table entry)
    (heq : ∀ a, table ≤ a → a < table + 4096 → m' a = m a) : HoldsFirst m' table entry := by
  intro j hj
  rw [Memory.load_congr fun b hb hb' => heq b (by omega) (by omega)]
  exact h j hj

/-- What the three tables hold in the end. -/
structure Filled (t : BootTables) (m : Memory) : Prop where
  top : HoldsFirst m t.pageTableL4.toNat (t.pageTableL3.toNat + 0b11)
  middle : HoldsFirst m t.pageTableL3.toNat (t.pageTableL2.toNat + 0b11)
  pages : ∀ j < 512, m.load (t.pageTableL2.toNat + j * 8) 8 = largePage j

theorem Filled.congr {m' : Memory} (h : t.Filled m)
    (heq : ∀ a, t.pageTableL4.toNat ≤ a → a < t.pageTableL4.toNat + 3 * 4096 → m' a = m a) :
    t.Filled m' := by
  have hl3 := t.pageTableL3_toNat
  have hl2 := t.pageTableL2_toNat
  refine ⟨h.top.congr fun a ha ha' => heq a (by omega) (by omega),
    h.middle.congr fun a ha ha' => heq a (by omega) (by omega), fun j hj => ?_⟩
  rw [Memory.load_congr fun b hb hb' => heq b (by omega) (by omega)]
  exact h.pages j hj

/-- The memory before the loop. -/
def upperTables (t : BootTables) (m : Memory) : Memory :=
  (m.store t.pageTableL4.toNat 4 (t.pageTableL3.toNat + 0b11)).store t.pageTableL3.toNat 4
    (t.pageTableL2.toNat + 0b11)

theorem setupUpperTables_memory (s : Cpu) :
    (t.setupUpperTables s).memory = t.upperTables s.memory := by
  have haligned := t.aligned
  have hl3 := t.pageTableL3_toNat
  have hl2 := t.pageTableL2_toNat
  have hentry3 : (t.pageTableL3 ||| 0b11).toNat = t.pageTableL3.toNat + 0b11 :=
    toNat_or_flags 12 (by omega) (by decide)
  have hentry2 : (t.pageTableL2 ||| 0b11).toNat = t.pageTableL2.toNat + 0b11 :=
    toNat_or_flags 12 (by omega) (by decide)
  simp only [setupUpperTables, Cpu.movEcx_memory, Cpu.storeEax_memory, Cpu.orEax_eax,
    Cpu.orEax_memory, Cpu.movEax_eax, Cpu.movEax_memory, hentry3, hentry2, upperTables]

theorem upperTables_frame {a : ℕ} (ha : a < t.pageTableL4.toNat ∨ t.pageTableL4.toNat + 4 ≤ a)
    (ha' : a < t.pageTableL3.toNat ∨ t.pageTableL3.toNat + 4 ≤ a) :
    t.upperTables m a = m a := by
  rw [upperTables, Memory.store_frame _ _ ha', Memory.store_frame _ _ ha]

/-- The state in which the loop begins. -/
theorem mapped_setupUpperTables (hzero : t.Zeroed s.memory) :
    t.Mapped (t.upperTables s.memory) 0 (t.setupUpperTables s) := by
  have hl3 := t.pageTableL3_toNat
  have hl2 := t.pageTableL2_toNat
  have hmemory := setupUpperTables_memory (t := t) s
  refine ⟨rfl, fun j hj => absurd hj (Nat.not_lt_zero j), ?_, ?_⟩
  · intro j _ hj
    rw [hmemory]
    refine Memory.load_eq_zero fun b hb hb' => ?_
    rw [upperTables_frame (by omega) (by omega)]
    exact hzero b (by omega) (by omega)
  · intro a _
    rw [hmemory]

/-- The tables lie one behind the other, so no store hits an entry stored before. -/
theorem filled_setupPageTables (hzero : t.Zeroed s.memory) :
    t.Filled (t.setupPageTables s).memory := by
  have hbelow := t.below
  have hl3 := t.pageTableL3_toNat
  have hl2 := t.pageTableL2_toNat
  have hend := (mapped_setupUpperTables hzero).mapLoop (Nat.zero_add 511)
  rw [← setupPageTables] at hend
  refine ⟨?_, ?_, hend.mapped⟩
  · have htop : HoldsFirst (s.memory.store t.pageTableL4.toNat 4 (t.pageTableL3.toNat + 0b11))
        t.pageTableL4.toNat (t.pageTableL3.toNat + 0b11) :=
      holdsFirst_store (by omega) fun a ha ha' => hzero a ha (by omega)
    refine htop.congr fun a ha ha' => ?_
    rw [hend.outside a (by omega), upperTables, Memory.store_frame _ _ (by omega)]
  · have hmiddle : HoldsFirst (t.upperTables s.memory) t.pageTableL3.toNat
        (t.pageTableL2.toNat + 0b11) := by
      refine holdsFirst_store (by omega) fun a ha ha' => ?_
      rw [Memory.store_frame _ _ (by omega)]
      exact hzero a (by omega) (by omega)
    refine hmiddle.congr fun a ha ha' => ?_
    rw [hend.outside a (by omega)]

/-- Outside the three tables nothing is stored. -/
theorem setupPageTables_frame (hzero : t.Zeroed s.memory) {a : ℕ}
    (ha : a < t.pageTableL4.toNat ∨ t.pageTableL4.toNat + 3 * 4096 ≤ a) :
    (t.setupPageTables s).memory a = s.memory a := by
  have hl3 := t.pageTableL3_toNat
  have hl2 := t.pageTableL2_toNat
  have hend := (mapped_setupUpperTables hzero).mapLoop (Nat.zero_add 511)
  rw [← setupPageTables] at hend
  rw [hend.outside a (by omega), upperTables_frame (by omega) (by omega)]

/-! ### The walk -/

/-- The first entry of an upper table leads to the next table, the others nowhere. -/
theorem HoldsFirst.walkFrom {m : Memory} {table next level v : ℕ} {writable : Bool}
    (h : HoldsFirst m table (next + 0b11)) (hnext : next % 4096 = 0) (hbound : next < 2 ^ 32) :
    walkFrom m v (level + 1) table writable =
      if v / span (level + 1) % 512 = 0 then walkFrom m v level next writable
      else .notPresent := by
  have hentry : entryOf m table (level + 1) v =
      if v / span (level + 1) % 512 = 0 then next + 0b11 else 0 :=
    h _ (Nat.mod_lt _ (by decide))
  by_cases hindex : v / span (level + 1) % 512 = 0
  · rw [if_pos hindex] at hentry ⊢
    apply walkFrom_of_table
    · rw [hentry, Present]
      omega
    · rw [hentry, Writable]
      omega
    · rw [hentry]
      omega
    · rw [hentry, IsLarge]
      omega
    · rw [hentry, frameOf, span]
      omega
  · rw [if_neg hindex] at hentry ⊢
    apply walkFrom_of_not_present
    rw [hentry]
    decide

/-- The whole address is below 2^30: the lowest table maps it to itself. -/
theorem Filled.walk_low {m : Memory} (h : t.Filled m) {v : ℕ} (hv : v < 2 ^ 30) :
    walk m t.pageTableL4.toNat v = .page v (2 ^ 21) true := by
  have haligned := t.aligned
  have hbelow := t.below
  have hl3 := t.pageTableL3_toNat
  have hl2 := t.pageTableL2_toNat
  have htop : v / span 3 % 512 = 0 := by
    unfold span
    omega
  have hmiddle : v / span 2 % 512 = 0 := by
    unfold span
    omega
  have hentry : entryOf m t.pageTableL2.toNat 1 v = largePage (v / 2 ^ 21 % 512) :=
    h.pages _ (Nat.mod_lt _ (by decide))
  have hindex : v / 2 ^ 21 % 512 < 512 := Nat.mod_lt _ (by decide)
  rw [walk, h.top.walkFrom (by omega) (by omega), if_pos htop,
    h.middle.walkFrom (by omega) (by omega), if_pos hmiddle, walkFrom_of_large]
  · have hspan : span (0 + 1) = 2 ^ 21 := by norm_num [span]
    have haddress : frameOf (largePage (v / 2 ^ 21 % 512)) (2 ^ 21) + v % 2 ^ 21 = v := by
      unfold frameOf largePage
      omega
    rw [hentry, hspan, haddress]
  · rw [hentry, largePage, Present]
    omega
  · rw [hentry, largePage, Writable]
    omega
  · rw [hentry]
    refine ⟨?_, fun _ _ => ⟨by decide, ?_⟩⟩
    · rw [largePage]
      omega
    · rw [largePage, span]
      omega
  · rw [hentry, largePage, IsLarge]
    omega

/-- From 2^30 on one of the upper two indices is not zero. -/
theorem Filled.walk_high {m : Memory} (h : t.Filled m) {v : ℕ} (hlow : 2 ^ 30 ≤ v)
    (hhigh : v < 2 ^ 48) : walk m t.pageTableL4.toNat v = .notPresent := by
  have haligned := t.aligned
  have hbelow := t.below
  have hl3 := t.pageTableL3_toNat
  have hl2 := t.pageTableL2_toNat
  rw [walk, h.top.walkFrom (by omega) (by omega)]
  by_cases htop : v / span 3 % 512 = 0
  · have hmiddle : v / span 2 % 512 ≠ 0 := by
      unfold span at htop ⊢
      omega
    rw [if_pos htop, h.middle.walkFrom (by omega) (by omega), if_neg hmiddle]
  · rw [if_neg htop]

/-- With the tables in `.bss`: every address below 2^30 is translated to itself, by a
writable page of 2 MiB, and no other address of 48 bits is present. -/
theorem identity_mapped (t : BootTables) {s : Cpu} (hzero : t.Zeroed s.memory) :
    (∀ v < 2 ^ 30, walk (t.setupPageTables s).memory t.pageTableL4.toNat v =
        .page v (2 ^ 21) true) ∧
      ∀ v, 2 ^ 30 ≤ v → v < 2 ^ 48 →
        walk (t.setupPageTables s).memory t.pageTableL4.toNat v = .notPresent := by
  have hfilled := filled_setupPageTables hzero
  exact ⟨fun v hv => hfilled.walk_low hv, fun v hlow hhigh => hfilled.walk_high hlow hhigh⟩

/-- The tables at the second megabyte. -/
def tablesAt2M : BootTables where
  pageTableL4 := 0x200000
  aligned := by decide
  below := by decide

theorem identity_mapped_at2M :
    walk (tablesAt2M.setupPageTables ⟨0, 0, 0, fun _ => 0⟩).memory 0x200000 0xB8000 =
      .page 0xB8000 (2 ^ 21) true :=
  (identity_mapped tablesAt2M (s := ⟨0, 0, 0, fun _ => 0⟩) fun _ _ _ => rfl).1 0xB8000 (by decide)

end BootTables

end EtyOS
