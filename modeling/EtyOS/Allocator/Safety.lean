import EtyOS.Allocator.Refinement

/-!
# Safety of the allocator over whole runs

A run starts with `memory_allocator_init` and is any sequence of allocations,
frees of live pointers, and stores of the owners into their own payloads. The
invariant is the chain of the pool together with the fact that its used blocks
are, up to order, the live allocations.
-/

namespace EtyOS

open Library FreeList MemoryBlock

variable (base : PoolBase)

/-- The address range of the pool. -/
abbrev PoolBase.stop : ℕ := base.addr + memoryPoolSize

/-- The memories and live allocations (pointer and requested size) that calls
of the allocator can lead to. -/
inductive PoolRun : Memory → List (ℕ × ℕ) → Prop
  | init (m : Memory) : PoolRun (memoryAllocatorInit base m) []
  | allocate {m m' : Memory} {live : List (ℕ × ℕ)} {p : ℕ} (n : UInt64) :
    PoolRun m live → allocate base m n = some (p, m') →
    PoolRun m' (if p = 0 then live else (p, n.toNat) :: live)
  | free {m m' : Memory} {live : List (ℕ × ℕ)} {p n : ℕ} :
    PoolRun m live → (p, n) ∈ live → free base m p = some m' → PoolRun m' (live.erase (p, n))
  | use {m m' : Memory} {live : List (ℕ × ℕ)} {p n : ℕ} :
    PoolRun m live → (p, n) ∈ live → (∀ a, a < p ∨ p + n ≤ a → m' a = m a) → PoolRun m' live

/-- The blocks of the pool: a chain from the start of the pool, laid out inside
it, whose used blocks are the live allocations. -/
structure PoolBlocks (m : Memory) (live : List (ℕ × ℕ)) (bs : List Block) : Prop where
  chain : Chain m base.addr bs
  laid : Laid 24 base.addr base.stop bs
  live : (used 24 bs).Perm live

variable {base}

theorem poolBlocks_init (m : Memory) :
    PoolBlocks base (memoryAllocatorInit base m) []
      [⟨base.addr, memoryPoolSize - sizeofMemoryBlock, true⟩] := by
  have hpos := base.pos
  constructor
  · refine ⟨rfl, by omega, ?_, ?_, ?_⟩
    · rw [memoryAllocatorInit, size_setNext, size_setIsFree,
        size_setSize _ _ _ (by rw [memoryPoolSize, sizeofMemoryBlock]; omega)]
    · rw [memoryAllocatorInit, isFree_setNext, isFree_setIsFree _ _ _ (by omega)]
      simp
    · exact next_setNext _ _ _ (by omega)
  · refine ⟨le_rfl, ?_⟩
    simp only [Laid, PoolBase.stop, memoryPoolSize, sizeofMemoryBlock]
    omega
  · rfl

section Steps

variable {m m' : Memory} {live : List (ℕ × ℕ)} {bs : List Block}

theorem PoolBlocks.length_lt (hb : PoolBlocks base m live bs) : bs.length < memoryPoolSize := by
  have h := length_lt_of_laid hb.laid
  simp only [PoolBase.stop, memoryPoolSize] at h ⊢
  omega

/-- `allocate` comes back, with the result of `firstFit` on the blocks. -/
theorem PoolBlocks.allocate (hb : PoolBlocks base m live bs) (n : UInt64) :
    ∃ m', allocate base m n =
        some (((firstFit 24 n.toNat bs).map Prod.fst).getD 0, m') ∧
      Chain m' base.addr (((firstFit 24 n.toNat bs).map Prod.snd).getD bs) ∧
      ∀ a, a < base.addr ∨ base.stop ≤ a → m' a = m a :=
  allocateFrom_refines hb.chain hb.laid base.fits hb.length_lt

/-- A pointer that is served is the payload of a block, so it is not NULL. -/
theorem firstFit_pos {h n p : ℕ} (hh : 0 < h) {bs bs' : List Block}
    (hfit : firstFit h n bs = some (p, bs')) : p ≠ 0 := by
  obtain ⟨-, b, -, -, -, rfl, -⟩ := firstFit_cases hfit
  omega

/-- A request that a block can serve is served. -/
theorem PoolBlocks.allocate_some (hb : PoolBlocks base m live bs) {n : UInt64} {p : ℕ}
    {bs' : List Block} (hfit : firstFit 24 n.toNat bs = some (p, bs')) :
    ∃ m', EtyOS.allocate base m n = some (p, m') ∧
      PoolBlocks base m' ((p, n.toNat) :: live) bs' := by
  obtain ⟨m', hm', hchain, -⟩ := hb.allocate n
  rw [hfit] at hm' hchain
  exact ⟨m', hm', hchain, hb.laid.firstFit hfit, (used_firstFit hfit).trans (hb.live.cons _)⟩

/-- A request that no block can serve returns NULL. -/
theorem PoolBlocks.allocate_none (hb : PoolBlocks base m live bs) {n : UInt64}
    (hfit : firstFit 24 n.toNat bs = none) :
    ∃ m', EtyOS.allocate base m n = some (0, m') ∧ PoolBlocks base m' live bs := by
  obtain ⟨m', hm', hchain, -⟩ := hb.allocate n
  rw [hfit] at hm' hchain
  exact ⟨m', hm', hchain, hb.laid, hb.live⟩

/-- `allocate` leaves the blocks that `firstFit` computes. -/
theorem PoolBlocks.after_allocate (hb : PoolBlocks base m live bs) {n : UInt64} {p : ℕ}
    (hrun : EtyOS.allocate base m n = some (p, m')) :
    PoolBlocks base m' (if p = 0 then live else (p, n.toNat) :: live)
      (((firstFit 24 n.toNat bs).map Prod.snd).getD bs) := by
  cases hfit : firstFit 24 n.toNat bs with
  | none =>
    obtain ⟨m₁, hm₁, hb₁⟩ := hb.allocate_none hfit
    obtain ⟨rfl, rfl⟩ := Prod.mk.inj (Option.some.inj (hm₁.symm.trans hrun))
    exact hb₁
  | some r =>
    obtain ⟨m₁, hm₁, hb₁⟩ := hb.allocate_some hfit
    obtain ⟨rfl, rfl⟩ := Prod.mk.inj (Option.some.inj (hm₁.symm.trans hrun))
    rw [if_neg (firstFit_pos (by omega) hfit)]
    exact hb₁

/-- The payload pointer of a live allocation belongs to a block of the chain. -/
theorem PoolBlocks.block_of_live (hb : PoolBlocks base m live bs) {p n : ℕ}
    (hp : (p, n) ∈ live) : ∃ b ∈ bs, b.free = false ∧ b.addr + 24 = p ∧ b.size = n := by
  obtain ⟨b, hmem, hfree, heq⟩ := mem_used (hb.live.mem_iff.mpr hp)
  obtain ⟨rfl, rfl⟩ := Prod.mk.inj heq
  exact ⟨b, hmem, hfree, rfl, rfl⟩

/-- `free` of a live pointer comes back, with one `mergePass` over the released list. -/
theorem PoolBlocks.free (hb : PoolBlocks base m live bs) {p n : ℕ} (hp : (p, n) ∈ live) :
    ∃ m', EtyOS.free base m p = some m' ∧
      Chain m' base.addr (mergePass 24 (release 24 p bs)) ∧
      ∀ a, a < base.addr ∨ base.stop ≤ a → m' a = m a := by
  obtain ⟨b, hmem, -, rfl, -⟩ := hb.block_of_live hp
  have hbound := hb.laid.mem hmem
  have hfits := base.fits
  have hblock : sub64 (b.addr + 24) sizeofMemoryBlock = b.addr := by
    unfold sub64 sizeofMemoryBlock
    simp only [PoolBase.stop] at hbound
    omega
  have hmarked : Chain (setIsFree m b.addr 1) base.addr (release 24 (b.addr + 24) bs) :=
    chain_setIsFree hb.chain fun c hc =>
      (hb.laid.separate hc hmem).imp (fun h => by rw [h]) fun h => by omega
  have hlen : (release 24 (b.addr + 24) bs).length < memoryPoolSize := by
    rw [release, List.length_map]
    exact hb.length_lt
  obtain ⟨m', hrun, hchain, hframe⟩ :=
    coalesceFrom_refines hmarked (hb.laid.release _) base.fits hlen
  refine ⟨m', ?_, hchain, ?_⟩
  · rw [EtyOS.free, if_neg (by omega), hblock]
    exact hrun
  · intro a ha
    rw [hframe a ha, setIsFree_frame _ _ (by omega)]

/-- A live pointer is freed, and its block joined with free neighbours. -/
theorem PoolBlocks.free_some (hb : PoolBlocks base m live bs) {p n : ℕ} (hp : (p, n) ∈ live) :
    ∃ m', EtyOS.free base m p = some m' ∧
      PoolBlocks base m' (live.erase (p, n)) (mergePass 24 (release 24 p bs)) := by
  obtain ⟨m', hm', hchain, -⟩ := hb.free hp
  refine ⟨m', hm', hchain, (hb.laid.release p).mergePass, ?_⟩
  rw [used_mergePass]
  exact (used_release (by omega) hb.laid (hb.live.mem_iff.mpr hp)).trans (hb.live.erase _)

/-- `free` leaves the blocks that `mergePass` computes. -/
theorem PoolBlocks.after_free (hb : PoolBlocks base m live bs) {p n : ℕ} (hp : (p, n) ∈ live)
    (hrun : EtyOS.free base m p = some m') :
    PoolBlocks base m' (live.erase (p, n)) (mergePass 24 (release 24 p bs)) := by
  obtain ⟨m₁, hm₁, hb₁⟩ := hb.free_some hp
  obtain rfl := Option.some.inj (hm₁.symm.trans hrun)
  exact hb₁

/-- Stores of an owner into its payload do not reach a header. -/
theorem PoolBlocks.after_use (hb : PoolBlocks base m live bs) {p n : ℕ} (hp : (p, n) ∈ live)
    (hframe : ∀ a, a < p ∨ p + n ≤ a → m' a = m a) : PoolBlocks base m' live bs := by
  obtain ⟨b, hmem, -, rfl, rfl⟩ := hb.block_of_live hp
  refine ⟨hb.chain.congr hb.laid fun c hc a ha ha' => hframe a ?_, hb.laid, hb.live⟩
  rcases hb.laid.separate hc hmem with rfl | hapart <;> omega

end Steps

/-- Every reachable pool has its blocks. -/
theorem PoolRun.blocks {m : Memory} {live : List (ℕ × ℕ)} (hrun : PoolRun base m live) :
    ∃ bs, PoolBlocks base m live bs := by
  induction hrun with
  | init m => exact ⟨_, poolBlocks_init m⟩
  | allocate n _ hstep ih =>
    obtain ⟨bs, hb⟩ := ih
    exact ⟨_, hb.after_allocate hstep⟩
  | free _ hp hstep ih =>
    obtain ⟨bs, hb⟩ := ih
    exact ⟨_, hb.after_free hp hstep⟩
  | use _ hp hframe ih =>
    obtain ⟨bs, hb⟩ := ih
    exact ⟨bs, hb.after_use hp hframe⟩

/-- Runs whose calls meet a condition on the blocks they find: the requested
size for `allocate`, the pointer for `free`. -/
inductive GuardedRun (base : PoolBase) (mayAllocate mayFree : List Block → ℕ → Prop) :
    Memory → List (ℕ × ℕ) → Prop
  | init (m : Memory) : GuardedRun base mayAllocate mayFree (memoryAllocatorInit base m) []
  | allocate {m m' : Memory} {live : List (ℕ × ℕ)} {bs : List Block} {p : ℕ} (n : UInt64) :
    GuardedRun base mayAllocate mayFree m live → Chain m base.addr bs → mayAllocate bs n.toNat →
    allocate base m n = some (p, m') →
    GuardedRun base mayAllocate mayFree m' (if p = 0 then live else (p, n.toNat) :: live)
  | free {m m' : Memory} {live : List (ℕ × ℕ)} {bs : List Block} {p n : ℕ} :
    GuardedRun base mayAllocate mayFree m live → Chain m base.addr bs → mayFree bs p →
    (p, n) ∈ live → free base m p = some m' →
    GuardedRun base mayAllocate mayFree m' (live.erase (p, n))
  | use {m m' : Memory} {live : List (ℕ × ℕ)} {p n : ℕ} :
    GuardedRun base mayAllocate mayFree m live → (p, n) ∈ live →
    (∀ a, a < p ∨ p + n ≤ a → m' a = m a) → GuardedRun base mayAllocate mayFree m' live

theorem GuardedRun.poolRun {mayAllocate mayFree : List Block → ℕ → Prop} {m : Memory}
    {live : List (ℕ × ℕ)} (hrun : GuardedRun base mayAllocate mayFree m live) :
    PoolRun base m live := by
  induction hrun with
  | init m => exact PoolRun.init m
  | allocate n _ _ _ hstep ih => exact PoolRun.allocate n ih hstep
  | free _ _ _ hp hstep ih => exact PoolRun.free ih hp hstep
  | use _ hp hframe ih => exact PoolRun.use ih hp hframe

/-- In every reachable pool the chain has increasing addresses and ends in
NULL, its blocks lie in the pool one after the other, the live payloads overlap
neither each other nor a header, and both walks come back. -/
theorem allocator_safety {m : Memory} {live : List (ℕ × ℕ)} (hrun : PoolRun base m live) :
    ∃ bs : List Block, Chain m base.addr bs ∧
      (bs.Pairwise fun a b => a.addr < b.addr) ∧
      (∀ b ∈ bs, base.addr ≤ b.addr ∧ b.addr + sizeofMemoryBlock + b.size ≤ base.stop) ∧
      (bs.Pairwise fun a b => a.addr + sizeofMemoryBlock + a.size ≤ b.addr) ∧
      (live.Pairwise fun x y => x.1 + x.2 ≤ y.1 ∨ y.1 + y.2 ≤ x.1) ∧
      (∀ x ∈ live, ∀ b ∈ bs, x.1 + x.2 ≤ b.addr ∨ b.addr + sizeofMemoryBlock ≤ x.1) ∧
      (∀ n : UInt64, ∃ r, allocate base m n = some r) ∧
      ∀ x ∈ live, ∃ m', free base m x.1 = some m' := by
  obtain ⟨bs, hb⟩ := hrun.blocks
  refine ⟨bs, hb.chain, ?_, fun b hmem => hb.laid.mem hmem, hb.laid.pairwise, ?_, ?_, ?_, ?_⟩
  · exact hb.laid.pairwise.imp fun {a b} hab => by omega
  · have hsymm : ∀ {x y : ℕ × ℕ}, (x.1 + x.2 ≤ y.1 ∨ y.1 + y.2 ≤ x.1) →
        (y.1 + y.2 ≤ x.1 ∨ x.1 + x.2 ≤ y.1) := Or.symm
    exact (hb.live.pairwise_iff hsymm).mp hb.laid.used_pairwise
  · rintro ⟨p, n⟩ hx b hmem
    obtain ⟨c, hc, -, rfl, rfl⟩ := hb.block_of_live hx
    unfold sizeofMemoryBlock
    rcases hb.laid.separate hc hmem with rfl | hapart <;> omega
  · intro n
    obtain ⟨m', hm', -⟩ := hb.allocate n
    exact ⟨_, hm'⟩
  · rintro ⟨p, n⟩ hx
    obtain ⟨m', hm', -⟩ := hb.free hx
    exact ⟨m', hm'⟩

/-- A pool at 1 MB with every byte zero before the boot code runs. -/
def bootPool : PoolBase where
  addr := 0x100000
  pos := by decide
  fits := by decide

/-- `allocate(512)`, `allocate(64)`, `allocate(512)` and `free` of the second, from booting
to `m`. -/
def FreedBetween (m : Memory) : Prop :=
  ∃ m₁ m₂ m₃, allocate bootPool (memoryAllocatorInit bootPool fun _ => 0) 512 = some (1048600, m₁) ∧
    allocate bootPool m₁ 64 = some (1049136, m₂) ∧ allocate bootPool m₂ 512 = some (1049224, m₃) ∧
    free bootPool m₃ 1049136 = some m

/-- What is live then, on both sides of a free block. -/
def twoLive : List (ℕ × ℕ) := [(1049224, 512), (1048600, 512)]

theorem exists_freedBetween : ∃ m, FreedBetween m ∧ PoolRun bootPool m twoLive := by
  have h₀ : PoolBlocks bootPool (memoryAllocatorInit bootPool fun _ => 0) []
      [⟨1048576, 104857576, true⟩] := poolBlocks_init _
  obtain ⟨m₁, hm₁, h₁⟩ : ∃ m, allocate bootPool _ 512 = some (1048600, m) ∧
      PoolBlocks bootPool m [(1048600, 512)]
        [⟨1048576, 512, false⟩, ⟨1049112, 104857040, true⟩] := h₀.allocate_some rfl
  obtain ⟨m₂, hm₂, h₂⟩ : ∃ m, allocate bootPool m₁ 64 = some (1049136, m) ∧
      PoolBlocks bootPool m [(1049136, 64), (1048600, 512)]
        [⟨1048576, 512, false⟩, ⟨1049112, 64, false⟩, ⟨1049200, 104856952, true⟩] :=
    h₁.allocate_some rfl
  obtain ⟨m₃, hm₃, h₃⟩ : ∃ m, allocate bootPool m₂ 512 = some (1049224, m) ∧
      PoolBlocks bootPool m [(1049224, 512), (1049136, 64), (1048600, 512)]
        [⟨1048576, 512, false⟩, ⟨1049112, 64, false⟩, ⟨1049200, 512, false⟩,
          ⟨1049736, 104856416, true⟩] := h₂.allocate_some rfl
  obtain ⟨m₄, hm₄, -⟩ := h₃.free (p := 1049136) (n := 64) (by simp)
  have hrun₃ := (((PoolRun.init _).allocate 512 hm₁).allocate 64 hm₂).allocate 512 hm₃
  exact ⟨m₄, ⟨m₁, m₂, m₃, hm₁, hm₂, hm₃, hm₄⟩, hrun₃.free (n := 64) (by simp) hm₄⟩

theorem allocator_safety_boot :
    ∃ m, FreedBetween m ∧
      ∃ bs : List Block, Chain m bootPool.addr bs ∧
        (bs.Pairwise fun a b => a.addr < b.addr) ∧
        (∀ b ∈ bs, bootPool.addr ≤ b.addr ∧
          b.addr + sizeofMemoryBlock + b.size ≤ bootPool.stop) ∧
        (bs.Pairwise fun a b => a.addr + sizeofMemoryBlock + a.size ≤ b.addr) ∧
        (twoLive.Pairwise fun x y => x.1 + x.2 ≤ y.1 ∨ y.1 + y.2 ≤ x.1) ∧
        (∀ x ∈ twoLive, ∀ b ∈ bs, x.1 + x.2 ≤ b.addr ∨ b.addr + sizeofMemoryBlock ≤ x.1) ∧
        (∀ n : UInt64, ∃ r, allocate bootPool m n = some r) ∧
        ∀ x ∈ twoLive, ∃ m', free bootPool m x.1 = some m' := by
  obtain ⟨m, hm, hrun⟩ := exists_freedBetween
  exact ⟨m, hm, allocator_safety hrun⟩

end EtyOS
