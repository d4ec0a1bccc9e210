import EtyOS.Allocator.Safety

/-!
# The pool as the ext4 formatter uses it

`format_ext4` is the only client of the allocator: it allocates one sector
buffer and frees it. The pool is either as `memory_allocator_init` left it, or
as a formatter left it that cleared the header behind its buffer. In both
states the next request for 512 bytes is served from the first block.
-/

namespace EtyOS

open Library FreeList MemoryBlock

variable (base : PoolBase)

/-- One free block, as after `memory_allocator_init`. -/
def PoolFresh (m : Memory) : Prop :=
  Chain m base.addr [⟨base.addr, memoryPoolSize - 24, true⟩]

/-- The first 512 bytes are free; the header behind them is all zero. -/
def PoolDamaged (m : Memory) : Prop :=
  Chain m base.addr [⟨base.addr, 512, true⟩, ⟨base.addr + 536, 0, false⟩]

/-- The states of the pool between two commands. -/
def PoolReady (m : Memory) : Prop := PoolFresh base m ∨ PoolDamaged base m

/-- The sector buffer is allocated and `t` is the block behind it. -/
def PoolBusy (t : Block) (m : Memory) : Prop :=
  Chain m base.addr [⟨base.addr, 512, false⟩, t]

/-- The block behind the buffer: the rest of the pool, or a cleared header. -/
def freshTail : Block := ⟨base.addr + 536, memoryPoolSize - 560, true⟩
def clearedTail : Block := ⟨base.addr + 536, 0, false⟩

/-- The buffer that `allocate(512)` returns in these states. -/
def PoolBase.buffer : ℕ := base.addr + 24

variable {base}

theorem laid_fresh : Laid 24 base.addr base.stop [⟨base.addr, memoryPoolSize - 24, true⟩] := by
  refine ⟨le_rfl, ?_⟩
  simp only [Laid, PoolBase.stop, memoryPoolSize]
  omega

theorem laid_buffer {b : Bool} {t : Block} (ht : t = freshTail base ∨ t = clearedTail base) :
    Laid 24 base.addr base.stop [⟨base.addr, 512, b⟩, t] := by
  rcases ht with rfl | rfl <;> refine ⟨le_rfl, ?_, ?_⟩ <;>
    simp only [Laid, PoolBase.stop, memoryPoolSize, freshTail, clearedTail] <;> omega

theorem PoolFresh.not_damaged {m : Memory} (h : PoolFresh base m) : ¬PoolDamaged base m := by
  intro hdamaged
  have hlength := congrArg List.length (h.unique hdamaged)
  simp at hlength

/-- A request for one sector is served from the first block. -/
theorem PoolReady.allocate {m : Memory} (h : PoolReady base m) :
    ∃ m' t, allocate base m 512 = some (base.buffer, m') ∧ PoolBusy base t m' ∧
      ((PoolFresh base m ∧ t = freshTail base) ∨ (PoolDamaged base m ∧ t = clearedTail base)) := by
  rcases h with h | h
  · have hfit : firstFit 24 512 [⟨base.addr, memoryPoolSize - 24, true⟩] =
        some (base.addr + 24, [⟨base.addr, 512, false⟩, freshTail base]) := by
      simp [firstFit, cut, freshTail, memoryPoolSize]
    obtain ⟨m', hrun, hchain, -⟩ :=
      allocateFrom_refines (n := 512) h laid_fresh base.fits
        (show _ < memoryPoolSize by simp [memoryPoolSize])
    rw [hfit] at hrun hchain
    exact ⟨m', freshTail base, hrun, hchain, Or.inl ⟨h, rfl⟩⟩
  · have hfit : firstFit 24 512 [⟨base.addr, 512, true⟩, ⟨base.addr + 536, 0, false⟩] =
        some (base.addr + 24, [⟨base.addr, 512, false⟩, clearedTail base]) := by
      simp [firstFit, cut, clearedTail]
    obtain ⟨m', hrun, hchain, -⟩ :=
      allocateFrom_refines (n := 512) h (laid_buffer (Or.inr rfl)) base.fits
        (show _ < memoryPoolSize by simp [memoryPoolSize])
    rw [hfit] at hrun hchain
    exact ⟨m', clearedTail base, hrun, hchain, Or.inr ⟨h, rfl⟩⟩

theorem PoolBase.buffer_ne_zero : base.buffer ≠ 0 := by
  have := base.pos
  unfold PoolBase.buffer
  omega

/-- What the pool becomes when the buffer is freed. -/
def AfterFree (base : PoolBase) (t : Block) (m : Memory) : Prop :=
  (t = freshTail base → PoolFresh base m) ∧ (t = clearedTail base → PoolDamaged base m)

theorem AfterFree.ready {t : Block} {m : Memory} (h : AfterFree base t m)
    (ht : t = freshTail base ∨ t = clearedTail base) : PoolReady base m := by
  rcases ht with ht | ht
  · exact Or.inl (h.1 ht)
  · exact Or.inr (h.2 ht)

theorem release_buffer {t : Block} (ht : t = freshTail base ∨ t = clearedTail base) :
    release 24 base.buffer [⟨base.addr, 512, false⟩, t] = [⟨base.addr, 512, true⟩, t] := by
  have haddr : t.addr = base.addr + 536 := by rcases ht with rfl | rfl <;> rfl
  have htail : t.addr + 24 ≠ base.buffer := by
    unfold PoolBase.buffer
    omega
  simp only [release, List.map_cons, List.map_nil, if_neg htail]
  rw [if_pos (show base.addr + 24 = base.buffer from rfl)]

theorem mergePass_fresh :
    mergePass 24 [⟨base.addr, 512, true⟩, freshTail base] =
      [⟨base.addr, memoryPoolSize - 24, true⟩] := by
  have hsize : 512 + 24 + (memoryPoolSize - 560) = memoryPoolSize - 24 := by
    unfold memoryPoolSize
    omega
  simp only [mergePass, freshTail, and_self, if_true, hsize]

theorem mergePass_cleared :
    mergePass 24 [⟨base.addr, 512, true⟩, clearedTail base] =
      [⟨base.addr, 512, true⟩, clearedTail base] := by
  simp [mergePass, clearedTail]

/-- Freeing the buffer comes back, whatever was stored in it. -/
theorem PoolBusy.free {t : Block} {m : Memory} (h : PoolBusy base t m)
    (ht : t = freshTail base ∨ t = clearedTail base) :
    ∃ m', free base m base.buffer = some m' ∧ AfterFree base t m' := by
  have hlaid := laid_buffer (b := false) ht
  have hlive : PoolBlocks base m (used 24 [⟨base.addr, 512, false⟩, t])
      [⟨base.addr, 512, false⟩, t] := ⟨h, hlaid, List.Perm.refl _⟩
  obtain ⟨m', hrun, hchain, -⟩ := hlive.free (p := base.buffer) (n := 512)
    (by simp [used, PoolBase.buffer])
  rw [release_buffer ht] at hchain
  refine ⟨m', hrun, ?_, ?_⟩
  · intro hfresh
    rw [hfresh, mergePass_fresh] at hchain
    exact hchain
  · intro hcleared
    rw [hcleared, mergePass_cleared] at hchain
    exact hchain

/-- Stores inside the buffer leave the headers alone. -/
theorem PoolBusy.congr {t : Block} {m m' : Memory} (h : PoolBusy base t m)
    (ht : t = freshTail base ∨ t = clearedTail base)
    (hframe : Memory.SameOutside m' m base.buffer 512) : PoolBusy base t m' := by
  refine Chain.congr h (laid_buffer (b := false) ht) fun b hb a ha ha' => hframe a ?_
  unfold PoolBase.buffer
  simp only [List.mem_cons, List.not_mem_nil, or_false] at hb
  rcases hb with rfl | rfl
  · left
    dsimp only at ha'
    omega
  · right
    rcases ht with rfl | rfl <;> simp only [freshTail, clearedTail] at ha <;> omega

theorem PoolBusy.afterFree {t : Block} {m m₁ m' : Memory} (h : PoolBusy base t m)
    (ht : t = freshTail base ∨ t = clearedTail base)
    (hframe : Memory.SameOutside m₁ m base.buffer 512)
    (hrun : EtyOS.free base m₁ base.buffer = some m') : AfterFree base t m' := by
  obtain ⟨m₂, hm₂, hafter⟩ := (h.congr ht hframe).free ht
  obtain rfl := Option.some.inj (hm₂.symm.trans hrun)
  exact hafter

/-- Clearing 730 bytes from the buffer on clears the header behind it. -/
theorem PoolBusy.cleared {t : Block} {m m' : Memory} (h : PoolBusy base t m)
    (ht : t = freshTail base ∨ t = clearedTail base)
    (hlow : ∀ a, a < base.buffer → m' a = m a)
    (hzero : ∀ a, base.buffer + 512 ≤ a → a < base.buffer + 730 → m' a = 0) :
    PoolBusy base (clearedTail base) m' := by
  unfold PoolBase.buffer at hlow hzero
  obtain ⟨-, hp, hsize, hfree, hnext, -⟩ := h
  have hnext' : next m base.addr = base.addr + 536 := by
    rw [hnext]
    rcases ht with rfl | rfl <;> rfl
  obtain ⟨hs, hf, hn⟩ := header_congr (p := base.addr) fun a _ ha => hlow a (by omega)
  refine ⟨rfl, hp, hs.trans hsize, by rw [hf]; exact hfree, ?_⟩
  rw [hn, hnext']
  refine ⟨rfl, by omega, Memory.load_eq_zero fun b _ _ => hzero b (by omega) (by omega), ?_,
    Memory.load_eq_zero fun b _ _ => hzero b (by omega) (by omega)⟩
  have hclear : isFree m' (base.addr + 536) = 0 :=
    Memory.load_eq_zero fun b _ _ => hzero b (by omega) (by omega)
  simp [hclear, clearedTail]

theorem poolFresh_init (m : Memory) : PoolFresh base (memoryAllocatorInit base m) :=
  (poolBlocks_init m).chain

end EtyOS
