import EtyOS.Allocator.Safety

/-!
# How far the pool can be split up, and what its owners keep

One walk of `free` does not join every two free neighbours, but what it leaves does
not add up: in every reachable pool a free block follows a free block at one place
at most, so the chain is never longer than twice the number of live allocations and
two. And the allocator writes into headers and free blocks alone, so that a byte
stored in a live payload is found there until the payload is freed.
-/

namespace EtyOS

open Library FreeList MemoryBlock

variable {base : PoolBase} {m m' : Memory} {live : List (ℕ × ℕ)} {bs : List Block}

section Fragmentation

theorem PoolRun.freePairs_le (hrun : PoolRun base m live) (hc : Chain m base.addr bs) :
    freePairs bs ≤ 1 := by
  induction hrun generalizing bs with
  | init m =>
    obtain rfl := hc.unique (poolBlocks_init m).chain
    simp [freePairs, headFree]
  | allocate n hprev hstep ih =>
    obtain ⟨cs, hb⟩ := hprev.blocks
    obtain rfl := hc.unique (hb.after_allocate hstep).chain
    have hold := ih hb.chain
    cases hfit : firstFit 24 n.toNat cs with
    | none => exact hold
    | some r => exact (freePairs_firstFit hfit).1.trans hold
  | @free _ _ _ p _ hprev hp hstep ih =>
    obtain ⟨cs, hb⟩ := hprev.blocks
    obtain rfl := hc.unique (hb.after_free hp hstep).chain
    -- a released block makes two pairs at most, and the walk leaves half of the three
    have hold := ih hb.chain
    have hreleased := freePairs_release (by omega) hb.laid p
    have hwalk := freePairs_mergePass (h := 24) (release 24 p cs)
    omega
  | use hprev hp hframe ih =>
    obtain ⟨cs, hb⟩ := hprev.blocks
    obtain rfl := hc.unique (hb.after_use hp hframe).chain
    exact ih hb.chain

/-- In every reachable pool at most one free block follows a free block, three free blocks
never stand in a row, and the chain has at most two blocks for each live allocation and
two more. So nothing is left of the allocations that were freed but two blocks at most. -/
theorem pool_fragmentation (hrun : PoolRun base m live) :
    ∃ bs : List Block, Chain m base.addr bs ∧ freePairs bs ≤ 1 ∧ NoThreeFree bs ∧
      bs.length ≤ 2 * live.length + 2 := by
  obtain ⟨bs, hb⟩ := hrun.blocks
  have hpairs := hrun.freePairs_le hb.chain
  refine ⟨bs, hb.chain, hpairs, noThreeFree_of_freePairs hpairs, ?_⟩
  have hlength := length_le_of_freePairs (h := 24) bs
  have hhead := headFree_le bs
  rw [hb.live.length_eq] at hlength
  omega

theorem pool_fragmentation_boot :
    ∃ m, FreedBetween m ∧
      ∃ bs : List Block, Chain m bootPool.addr bs ∧ freePairs bs ≤ 1 ∧ NoThreeFree bs ∧
        bs.length ≤ 2 * twoLive.length + 2 := by
  obtain ⟨m, hm, hrun⟩ := exists_freedBetween
  exact ⟨m, hm, pool_fragmentation hrun⟩

end Fragmentation

section Payloads

/-- An address in the payload of a used block of the list. -/
def InUsed (bs : List Block) (a : ℕ) : Prop :=
  ∃ b ∈ bs, b.free = false ∧ b.addr + 24 ≤ a ∧ a < b.addr + 24 + b.size

theorem inUsed_cons {b : Block} {a : ℕ} :
    InUsed (b :: bs) a ↔ (b.free = false ∧ b.addr + 24 ≤ a ∧ a < b.addr + 24 + b.size) ∨ InUsed bs a := by
  simp [InUsed]

/-- The rest of the list lies behind its first block. -/
theorem InUsed.le {lo hi a : ℕ} (h : InUsed bs a) (hl : Laid 24 lo hi bs) : lo + 24 ≤ a := by
  obtain ⟨b, hb, -, ha, -⟩ := h
  have := (hl.mem hb).1
  omega

/-- The walk of `allocate` writes into a free block; the induction follows the walk. -/
theorem allocateFrom_payload {p lo hi n steps a : ℕ} {r : ℕ × Memory} (hc : Chain m p bs)
    (hl : Laid 24 lo hi bs) (hhi : hi < 2 ^ 64) (hsteps : bs.length < steps) (ha : InUsed bs a)
    (hrun : allocateFrom n steps m p = some r) : r.2 a = m a := by
  induction bs generalizing p lo steps with
  | nil => exact absurd ha (by simp [InUsed])
  | cons b bs ih =>
    obtain ⟨steps, rfl⟩ := Nat.exists_eq_succ_of_ne_zero (by omega : steps ≠ 0)
    obtain ⟨rfl, hp, hsize, hfree, hrest⟩ := id hc
    have hshort : bs.length < steps := by simpa using hsteps
    have hend := hl.2.le
    rw [allocateFrom, if_neg hp] at hrun
    by_cases hserve : b.free = true ∧ n ≤ b.size
    · rw [if_pos ⟨hfree.mpr hserve.1, by rw [hsize]; exact hserve.2⟩] at hrun
      obtain rfl := (Option.some.inj hrun).symm
      rcases inUsed_cons.mp ha with ⟨hused, -⟩ | ha
      · exact absurd (hserve.1.symm.trans hused) (by simp)
      · have hbehind := ha.le hl.2
        exact serve_frame (by omega) (by omega) (by omega)
    · rw [if_neg fun h => hserve ⟨hfree.mp h.1, by rw [← hsize]; exact h.2⟩] at hrun
      rcases inUsed_cons.mp ha with ⟨-, -, hbefore⟩ | ha
      · -- the rest of the walk stays behind this block
        obtain ⟨m', hm', -, hframe⟩ := allocateFrom_refines (n := n) hrest hl.2 hhi hshort
        obtain rfl := Option.some.inj (hm'.symm.trans hrun)
        exact hframe a (Or.inl hbefore)
      · exact ih hrest hl.2 hshort ha hrun

/-- The walk of `free` writes into headers. -/
theorem coalesceFrom_payload {p lo hi steps a : ℕ} (hc : Chain m p bs)
    (hl : Laid 24 lo hi bs) (hhi : hi < 2 ^ 64) (hsteps : bs.length < steps) (ha : InUsed bs a)
    (hrun : coalesceFrom steps m p = some m') : m' a = m a := by
  induction bs using mergePass.induct generalizing m p lo steps with
  | case1 b c bs hfree ih =>
    obtain ⟨steps, rfl⟩ := Nat.exists_eq_succ_of_ne_zero (by omega : steps ≠ 0)
    have hmerged := chain_mergeNext hc hl hhi hfree.1
    obtain ⟨rfl, hp, -, hbfree, -, hp', -, hcfree, -⟩ := hc
    have hlater : InUsed bs a := by
      simpa [inUsed_cons, hfree.1, hfree.2] using ha
    have hbehind := hlater.le hl.2.2
    have hapart := hl.2.1
    rw [coalesceFrom, if_neg (not_or.mpr ⟨hp, hp'⟩),
      if_pos ⟨hbfree.mpr hfree.1, hcfree.mpr hfree.2⟩] at hrun
    rw [ih hmerged.2.2.2.2 hl.2.2 (by simp only [List.length_cons] at hsteps; omega) hlater hrun]
    exact mergeNext_frame (by omega)
  | case2 b c bs hfree ih =>
    obtain ⟨steps, rfl⟩ := Nat.exists_eq_succ_of_ne_zero (by omega : steps ≠ 0)
    obtain ⟨rfl, hp, -, hbfree, hrest⟩ := id hc
    have hshort : (c :: bs).length < steps := by simpa using hsteps
    have hnot : ¬(isFree m b.addr ≠ 0 ∧ isFree m (next m b.addr) ≠ 0) := fun h =>
      hfree ⟨hbfree.mp h.1, hrest.2.2.2.1.mp h.2⟩
    rw [coalesceFrom, if_neg (not_or.mpr ⟨hp, hrest.2.1⟩), if_neg hnot] at hrun
    rcases inUsed_cons.mp ha with ⟨-, -, hbefore⟩ | ha
    · obtain ⟨m₁, hm₁, -, hframe⟩ := coalesceFrom_refines hrest hl.2 hhi hshort
      obtain rfl := Option.some.inj (hm₁.symm.trans hrun)
      exact hframe a (Or.inl hbefore)
    · exact ih hrest hl.2 hshort ha hrun
  | case3 b =>
    obtain ⟨steps, rfl⟩ := Nat.exists_eq_succ_of_ne_zero (by omega : steps ≠ 0)
    have hlast : next m p = 0 := hc.2.2.2.2
    rw [coalesceFrom, if_pos (Or.inr hlast)] at hrun
    rw [Option.some.inj hrun]
  | case4 => exact absurd ha (by simp [InUsed])

/-- An address in a live payload. -/
def InLive (live : List (ℕ × ℕ)) (a : ℕ) : Prop := ∃ x ∈ live, x.1 ≤ a ∧ a < x.1 + x.2

theorem PoolBlocks.inUsed_iff (hb : PoolBlocks base m live bs) {a : ℕ} :
    InLive live a ↔ InUsed bs a := by
  constructor
  · rintro ⟨⟨p, n⟩, hx, ha, ha'⟩
    obtain ⟨b, hmem, hfree, rfl, rfl⟩ := hb.block_of_live hx
    exact ⟨b, hmem, hfree, ha, ha'⟩
  · rintro ⟨b, hmem, hfree, ha, ha'⟩
    refine ⟨(b.addr + 24, b.size), hb.live.mem_iff.mp ?_, ha, ha'⟩
    exact List.mem_map.mpr ⟨b, List.mem_filter.mpr ⟨hmem, by simp [hfree]⟩, rfl⟩

theorem PoolBlocks.allocate_payload (hb : PoolBlocks base m live bs) {n : UInt64} {p a : ℕ}
    (ha : InLive live a) (hrun : EtyOS.allocate base m n = some (p, m')) : m' a = m a :=
  allocateFrom_payload hb.chain hb.laid base.fits hb.length_lt (hb.inUsed_iff.mp ha) hrun

/-- `free` leaves the payloads of the others alone. -/
theorem PoolBlocks.free_payload (hb : PoolBlocks base m live bs) {p n a : ℕ} (hp : (p, n) ∈ live)
    (ha : InLive live a) (hother : ¬(p ≤ a ∧ a < p + n)) (hrun : EtyOS.free base m p = some m') :
    m' a = m a := by
  obtain ⟨b, hmem, hused, rfl, rfl⟩ := hb.block_of_live hp
  obtain ⟨c, hc, hcused, hca, hca'⟩ := hb.inUsed_iff.mp ha
  have hbound := hb.laid.mem hmem
  have hfits := base.fits
  have hblock : sub64 (b.addr + 24) sizeofMemoryBlock = b.addr := by
    unfold sub64 sizeofMemoryBlock
    simp only [PoolBase.stop] at hbound
    omega
  have hapart : b.addr + 24 + b.size ≤ c.addr ∨ c.addr + 24 + c.size ≤ b.addr := by
    rcases hb.laid.separate hmem hc with rfl | hapart
    · exact absurd ⟨hca, hca'⟩ hother
    · exact hapart
  have hmarked : Chain (setIsFree m b.addr 1) base.addr (release 24 (b.addr + 24) bs) :=
    chain_setIsFree hb.chain fun c hc =>
      (hb.laid.separate hc hmem).imp (fun h => by rw [h]) fun h => by omega
  have hlength : (release 24 (b.addr + 24) bs).length < memoryPoolSize := by
    rw [release, List.length_map]
    exact hb.length_lt
  have hkept : InUsed (release 24 (b.addr + 24) bs) a := by
    refine ⟨c, List.mem_map.mpr ⟨c, hc, if_neg (by omega)⟩, hcused, hca, hca'⟩
  rw [EtyOS.free, if_neg (by omega), hblock] at hrun
  rw [coalesceFrom_payload hmarked (hb.laid.release _) base.fits hlength hkept hrun]
  exact setIsFree_frame _ _ (by omega)

end Payloads

section Ownership

/-- Runs with what the owners have stored: for every address the last value that the owner
of its payload has written since the allocation. -/
inductive OwnedRun (base : PoolBase) : Memory → List (ℕ × ℕ) → (ℕ → Option UInt8) → Prop
  | init (m : Memory) : OwnedRun base (memoryAllocatorInit base m) [] fun _ => none
  | allocate {m m' : Memory} {live : List (ℕ × ℕ)} {stored : ℕ → Option UInt8} {p : ℕ}
    (n : UInt64) : OwnedRun base m live stored → allocate base m n = some (p, m') →
    OwnedRun base m' (if p = 0 then live else (p, n.toNat) :: live) stored
  | free {m m' : Memory} {live : List (ℕ × ℕ)} {stored : ℕ → Option UInt8} {p n : ℕ} :
    OwnedRun base m live stored → (p, n) ∈ live → free base m p = some m' →
    OwnedRun base m' (live.erase (p, n)) fun a => if p ≤ a ∧ a < p + n then none else stored a
  | write {m : Memory} {live : List (ℕ × ℕ)} {stored : ℕ → Option UInt8} {p n i : ℕ}
    (v : UInt8) : OwnedRun base m live stored → (p, n) ∈ live → i < n →
    OwnedRun base (Function.update m (p + i) v) live (Function.update stored (p + i) (some v))

variable {stored : ℕ → Option UInt8}

theorem OwnedRun.poolRun (hrun : OwnedRun base m live stored) : PoolRun base m live := by
  induction hrun with
  | init m => exact PoolRun.init m
  | allocate n _ hstep ih => exact PoolRun.allocate n ih hstep
  | free _ hp hstep ih => exact PoolRun.free ih hp hstep
  | write v _ hp hi ih =>
    exact PoolRun.use ih hp fun a ha => Function.update_of_ne (by omega) _ _

/-- Only live payloads have owners. -/
theorem OwnedRun.inLive (hrun : OwnedRun base m live stored) {a : ℕ} (ha : stored a ≠ none) :
    InLive live a := by
  induction hrun with
  | init m => exact absurd rfl ha
  | allocate n _ _ ih =>
    obtain ⟨x, hx, hle, hlt⟩ := ih ha
    refine ⟨x, ?_, hle, hlt⟩
    split
    · exact hx
    · exact List.mem_cons_of_mem _ hx
  | @free _ _ _ _ p n _ hp _ ih =>
    dsimp only at ha
    split at ha
    · exact absurd rfl ha
    · rename_i hother
      obtain ⟨x, hx, hle, hlt⟩ := ih ha
      have hne : x ≠ (p, n) := by
        rintro rfl
        exact hother ⟨hle, hlt⟩
      exact ⟨x, (List.mem_erase_of_ne hne).mpr hx, hle, hlt⟩
  | @write m live stored p n i v _ hp hi ih =>
    by_cases heq : a = p + i
    · exact ⟨(p, n), hp, by simp only; omega, by simp only; omega⟩
    · rw [Function.update_of_ne heq] at ha
      exact ih ha

/-- What an owner has stored in its payload is what the memory holds there, whatever is
allocated, freed and stored by others in the meantime. -/
theorem stored_bytes_kept (hrun : OwnedRun base m live stored) :
    ∀ a v, stored a = some v → m a = v := by
  induction hrun with
  | init m => simp
  | allocate n hprev hstep ih =>
    intro a v ha
    obtain ⟨bs, hb⟩ := hprev.poolRun.blocks
    rw [hb.allocate_payload (hprev.inLive (by simp [ha])) hstep, ih a v ha]
  | free hprev hp hstep ih =>
    intro a v ha
    obtain ⟨bs, hb⟩ := hprev.poolRun.blocks
    dsimp only at ha
    split at ha
    · exact absurd ha (by simp)
    · rename_i hother
      rw [hb.free_payload hp (hprev.inLive (by simp [ha])) hother hstep, ih a v ha]
  | @write m live stored p n i v' _ hp hi ih =>
    intro a v ha
    by_cases heq : a = p + i
    · subst heq
      rw [Function.update_self] at ha ⊢
      exact Option.some.inj ha
    · rw [Function.update_of_ne heq] at ha ⊢
      exact ih a v ha

/-- A byte stored in the first allocation, and a second allocation. -/
theorem stored_bytes_kept_boot :
    ∃ m, allocate bootPool (memoryAllocatorInit bootPool fun _ => 0) 512 =
        some (bootPool.addr + 24, m) ∧
      ∃ q m', allocate bootPool (Function.update m (bootPool.addr + 24 + 0) 7) 16 = some (q, m') ∧
        ∀ a v, Function.update (fun _ => none) (bootPool.addr + 24 + 0) (some 7) a = some v →
          m' a = v := by
  obtain ⟨m, hm, -⟩ := PoolBlocks.allocate (poolBlocks_init fun _ => 0) 512
  have hfirst : OwnedRun bootPool m [(bootPool.addr + 24, 512)] fun _ => none :=
    OwnedRun.allocate 512 (OwnedRun.init _) hm
  have hwritten := hfirst.write (i := 0) 7 (List.mem_singleton.mpr rfl) (by decide)
  obtain ⟨bs, hb⟩ := hwritten.poolRun.blocks
  obtain ⟨m', hm', -⟩ := hb.allocate 16
  exact ⟨m, hm, _, m', hm', stored_bytes_kept (hwritten.allocate 16 hm')⟩

end Ownership

end EtyOS
