import EtyOS.Allocator.Safety

/-!
# What `free` joins and what `allocate` loses

The coalescing loop of `free` moves on after it has joined two blocks, so a
block between two free neighbours is joined with the first of them only.
`allocate` hands out the whole block when the rest is too small for a header,
but records the requested size, so the rest is in no block any more. Both main
results say in which runs neither happens. Whatever `free` joins, no request
that was possible before it becomes impossible.
-/

namespace EtyOS

open Library FreeList MemoryBlock

variable {base : PoolBase} {m : Memory} {live : List (ℕ × ℕ)} {bs : List Block}

section Coalescing

/-- Before `free p`, no three blocks in a row are each free or the block of `p`. -/
def JoinsAll (bs : List Block) (p : ℕ) : Prop := NoThreeFree (release sizeofMemoryBlock p bs)

theorem GuardedRun.noTwoFree {mayAllocate : List Block → ℕ → Prop}
    (hrun : GuardedRun base mayAllocate JoinsAll m live) (hc : Chain m base.addr bs) :
    NoTwoFree bs := by
  induction hrun generalizing bs with
  | init m =>
    obtain rfl := hc.unique (poolBlocks_init m).chain
    simp [NoTwoFree]
  | allocate n hprev _ _ hstep ih =>
    obtain ⟨cs, hb⟩ := hprev.poolRun.blocks
    obtain rfl := hc.unique (hb.after_allocate hstep).chain
    have hold := ih hb.chain
    cases hfit : firstFit 24 n.toNat cs with
    | none => exact hold
    | some r => exact (hold.firstFit hfit).1
  | free hprev hcs hjoin hp hstep ih =>
    obtain ⟨cs, hb⟩ := hprev.poolRun.blocks
    obtain rfl := hcs.unique hb.chain
    obtain rfl := hc.unique (hb.after_free hp hstep).chain
    exact (noTwoFree_mergePass _).mpr hjoin
  | use hprev hp hframe ih =>
    obtain ⟨cs, hb⟩ := hprev.poolRun.blocks
    obtain rfl := hc.unique (hb.after_use hp hframe).chain
    exact ih hb.chain

/-- In every reachable pool and for every live pointer, `free` leaves no two
free neighbours exactly when before the call no three blocks in a row are each
free or the freed one. A run whose calls of `free` all find it so never has two
free neighbours at all. -/
theorem free_coalesces_iff (hrun : PoolRun base m live) :
    ∃ bs : List Block, Chain m base.addr bs ∧
      (∀ x ∈ live, ∃ m' bs', free base m x.1 = some m' ∧ Chain m' base.addr bs' ∧
        (NoTwoFree bs' ↔ JoinsAll bs x.1)) ∧
      (GuardedRun base (fun _ _ => True) JoinsAll m live → NoTwoFree bs) := by
  obtain ⟨bs, hb⟩ := hrun.blocks
  refine ⟨bs, hb.chain, ?_, fun hguarded => hguarded.noTwoFree hb.chain⟩
  rintro ⟨p, n⟩ hp
  obtain ⟨m', hm', hchain, -⟩ := hb.free hp
  exact ⟨m', _, hm', hchain, noTwoFree_mergePass _⟩

theorem free_coalesces_boot :
    ∃ m, FreedBetween m ∧
      ∃ bs : List Block, Chain m bootPool.addr bs ∧
        (∀ x ∈ twoLive, ∃ m' bs', free bootPool m x.1 = some m' ∧ Chain m' bootPool.addr bs' ∧
          (NoTwoFree bs' ↔ JoinsAll bs x.1)) ∧
        (GuardedRun bootPool (fun _ _ => True) JoinsAll m twoLive → NoTwoFree bs) := by
  obtain ⟨m, hm, hrun⟩ := exists_freedBetween
  exact ⟨m, hm, free_coalesces_iff hrun⟩

/-- Three allocations of 8 bytes, freed in the order first, third, second: the
last call joins the first two blocks and leaves the third free behind them. -/
theorem free_leaves_neighbours :
    ∃ m₁ m₂ m₃ m₄ m₅ m₆ bs,
      allocate bootPool (memoryAllocatorInit bootPool fun _ => 0) 8 = some (1048600, m₁) ∧
      allocate bootPool m₁ 8 = some (1048632, m₂) ∧ allocate bootPool m₂ 8 = some (1048664, m₃) ∧
      free bootPool m₃ 1048600 = some m₄ ∧ free bootPool m₄ 1048664 = some m₅ ∧
      PoolRun bootPool m₅ [(1048632, 8)] ∧ free bootPool m₅ 1048632 = some m₆ ∧
      Chain m₆ bootPool.addr bs ∧ ¬NoTwoFree bs := by
  have h₀ : PoolBlocks bootPool (memoryAllocatorInit bootPool fun _ => 0) []
      [⟨1048576, 104857576, true⟩] := poolBlocks_init _
  obtain ⟨m₁, hm₁, h₁⟩ : ∃ m, allocate bootPool _ 8 = some (1048600, m) ∧
      PoolBlocks bootPool m [(1048600, 8)]
        [⟨1048576, 8, false⟩, ⟨1048608, 104857544, true⟩] := h₀.allocate_some rfl
  obtain ⟨m₂, hm₂, h₂⟩ : ∃ m, allocate bootPool m₁ 8 = some (1048632, m) ∧
      PoolBlocks bootPool m [(1048632, 8), (1048600, 8)]
        [⟨1048576, 8, false⟩, ⟨1048608, 8, false⟩, ⟨1048640, 104857512, true⟩] :=
    h₁.allocate_some rfl
  obtain ⟨m₃, hm₃, h₃⟩ : ∃ m, allocate bootPool m₂ 8 = some (1048664, m) ∧
      PoolBlocks bootPool m [(1048664, 8), (1048632, 8), (1048600, 8)]
        [⟨1048576, 8, false⟩, ⟨1048608, 8, false⟩, ⟨1048640, 8, false⟩,
          ⟨1048672, 104857480, true⟩] := h₂.allocate_some rfl
  obtain ⟨m₄, hm₄, h₄⟩ : ∃ m, free bootPool m₃ 1048600 = some m ∧
      PoolBlocks bootPool m [(1048664, 8), (1048632, 8)]
        [⟨1048576, 8, true⟩, ⟨1048608, 8, false⟩, ⟨1048640, 8, false⟩,
          ⟨1048672, 104857480, true⟩] := h₃.free_some (n := 8) (by simp)
  obtain ⟨m₅, hm₅, h₅⟩ : ∃ m, free bootPool m₄ 1048664 = some m ∧
      PoolBlocks bootPool m [(1048632, 8)]
        [⟨1048576, 8, true⟩, ⟨1048608, 8, false⟩, ⟨1048640, 104857512, true⟩] :=
    h₄.free_some (n := 8) (by simp)
  obtain ⟨m₆, hm₆, h₆⟩ : ∃ m, free bootPool m₅ 1048632 = some m ∧
      PoolBlocks bootPool m [] [⟨1048576, 40, true⟩, ⟨1048640, 104857512, true⟩] :=
    h₅.free_some (n := 8) (by simp)
  have hrun₃ := (((PoolRun.init _).allocate 8 hm₁).allocate 8 hm₂).allocate 8 hm₃
  have hrun₅ : PoolRun bootPool m₅ [(1048632, 8)] :=
    (hrun₃.free (n := 8) (by simp) hm₄).free (n := 8) (by simp) hm₅
  exact ⟨m₁, m₂, m₃, m₄, m₅, m₆, _, hm₁, hm₂, hm₃, hm₄, hm₅, hrun₅, hm₆, h₆.chain,
    by simp [NoTwoFree]⟩

end Coalescing

section Conservation

/-- The bytes the chain accounts for: headers and recorded sizes. -/
abbrev bytesOf (bs : List Block) : ℕ := total sizeofMemoryBlock bs

/-- The first free block that is large enough for `n` bytes has exactly `n`
bytes, or more than a header beyond them. -/
def LosesNone (bs : List Block) (n : ℕ) : Prop := FitsWhole sizeofMemoryBlock n bs

theorem bytesOf_init :
    bytesOf [⟨base.addr, memoryPoolSize - sizeofMemoryBlock, true⟩] = memoryPoolSize := by
  have hheader : sizeofMemoryBlock ≤ memoryPoolSize := by decide
  rw [bytesOf, total_cons, total_nil, add_zero]
  exact Nat.add_sub_of_le hheader

theorem bytesOf_allocate (n : ℕ) (bs : List Block) :
    bytesOf (((firstFit 24 n bs).map Prod.snd).getD bs) ≤ bytesOf bs ∧
      (bytesOf (((firstFit 24 n bs).map Prod.snd).getD bs) = bytesOf bs ↔ LosesNone bs n) := by
  cases hfit : firstFit 24 n bs with
  | none => exact ⟨le_rfl, iff_of_true rfl (fitsWhole_of_none hfit)⟩
  | some r => exact total_firstFit hfit

theorem bytesOf_free (p : ℕ) (bs : List Block) :
    bytesOf (mergePass 24 (release 24 p bs)) = bytesOf bs := by
  unfold bytesOf
  rw [sizeofMemoryBlock, total_mergePass, total_release]

theorem PoolRun.bytesOf_le (hrun : PoolRun base m live) (hc : Chain m base.addr bs) :
    bytesOf bs ≤ memoryPoolSize := by
  induction hrun generalizing bs with
  | init m =>
    obtain rfl := hc.unique (poolBlocks_init m).chain
    exact bytesOf_init.le
  | allocate n hprev hstep ih =>
    obtain ⟨cs, hb⟩ := hprev.blocks
    obtain rfl := hc.unique (hb.after_allocate hstep).chain
    exact (bytesOf_allocate n.toNat cs).1.trans (ih hb.chain)
  | free hprev hp hstep ih =>
    obtain ⟨cs, hb⟩ := hprev.blocks
    obtain rfl := hc.unique (hb.after_free hp hstep).chain
    rw [bytesOf_free]
    exact ih hb.chain
  | use hprev hp hframe ih =>
    obtain ⟨cs, hb⟩ := hprev.blocks
    obtain rfl := hc.unique (hb.after_use hp hframe).chain
    exact ih hb.chain

theorem GuardedRun.bytesOf_eq {mayFree : List Block → ℕ → Prop}
    (hrun : GuardedRun base LosesNone mayFree m live) (hc : Chain m base.addr bs) :
    bytesOf bs = memoryPoolSize := by
  induction hrun generalizing bs with
  | init m =>
    obtain rfl := hc.unique (poolBlocks_init m).chain
    exact bytesOf_init
  | allocate n hprev hcs hfits hstep ih =>
    obtain ⟨cs, hb⟩ := hprev.poolRun.blocks
    obtain rfl := hcs.unique hb.chain
    obtain rfl := hc.unique (hb.after_allocate hstep).chain
    exact ((bytesOf_allocate n.toNat _).2.mpr hfits).trans (ih hb.chain)
  | free hprev hcs _ hp hstep ih =>
    obtain ⟨cs, hb⟩ := hprev.poolRun.blocks
    obtain rfl := hc.unique (hb.after_free hp hstep).chain
    rw [bytesOf_free]
    exact ih hb.chain
  | use hprev hp hframe ih =>
    obtain ⟨cs, hb⟩ := hprev.poolRun.blocks
    obtain rfl := hc.unique (hb.after_use hp hframe).chain
    exact ih hb.chain

/-- No call gives a lost byte back, so a full account was full all along. -/
theorem PoolRun.losesNone (hrun : PoolRun base m live) (hc : Chain m base.addr bs)
    (hfull : bytesOf bs = memoryPoolSize) :
    GuardedRun base LosesNone (fun _ _ => True) m live := by
  induction hrun generalizing bs with
  | init m => exact GuardedRun.init m
  | allocate n hprev hstep ih =>
    obtain ⟨cs, hb⟩ := hprev.blocks
    obtain rfl := hc.unique (hb.after_allocate hstep).chain
    obtain ⟨hle, hiff⟩ := bytesOf_allocate n.toNat cs
    have hold := hprev.bytesOf_le hb.chain
    have hfull' : bytesOf cs = memoryPoolSize := by omega
    exact (ih hb.chain hfull').allocate n hb.chain (hiff.mp (by omega)) hstep
  | free hprev hp hstep ih =>
    obtain ⟨cs, hb⟩ := hprev.blocks
    obtain rfl := hc.unique (hb.after_free hp hstep).chain
    rw [bytesOf_free] at hfull
    exact (ih hb.chain hfull).free hb.chain trivial hp hstep
  | use hprev hp hframe ih =>
    obtain ⟨cs, hb⟩ := hprev.blocks
    obtain rfl := hc.unique (hb.after_use hp hframe).chain
    exact (ih hb.chain hfull).use hp hframe

/-- The blocks of a reachable pool account for all of its bytes exactly when it
can be reached by calls of `allocate` that each found a block of the requested
size or of more than a header beyond it, or none. -/
theorem pool_conserved_iff (hrun : PoolRun base m live) :
    ∃ bs : List Block, Chain m base.addr bs ∧
      ((bs.map fun b => sizeofMemoryBlock + b.size).sum = memoryPoolSize ↔
        GuardedRun base LosesNone (fun _ _ => True) m live) := by
  obtain ⟨bs, hb⟩ := hrun.blocks
  exact ⟨bs, hb.chain, hrun.losesNone hb.chain, fun hguarded => hguarded.bytesOf_eq hb.chain⟩

theorem pool_conserved_boot :
    ∃ m, FreedBetween m ∧
      ∃ bs : List Block, Chain m bootPool.addr bs ∧
        ((bs.map fun b => sizeofMemoryBlock + b.size).sum = memoryPoolSize ↔
          GuardedRun bootPool LosesNone (fun _ _ => True) m twoLive) := by
  obtain ⟨m, hm, hrun⟩ := exists_freedBetween
  exact ⟨m, hm, pool_conserved_iff hrun⟩

/-- One byte less than the largest request: the last byte is in no block. -/
theorem allocate_loses_byte :
    ∃ m bs, allocate bootPool (memoryAllocatorInit bootPool fun _ => 0) 104857575 =
        some (1048600, m) ∧ Chain m bootPool.addr bs ∧
      (bs.map fun b => sizeofMemoryBlock + b.size).sum + 1 = memoryPoolSize := by
  obtain ⟨m, hm, hb⟩ : ∃ m, allocate bootPool (memoryAllocatorInit bootPool fun _ => 0) 104857575 =
      some (1048600, m) ∧
      PoolBlocks bootPool m [(1048600, 104857575)] [⟨1048576, 104857575, false⟩] :=
    (poolBlocks_init _).allocate_some rfl
  exact ⟨m, _, hm, hb.chain, by decide⟩

end Conservation

section Requests

/-- `allocate(n)` returns a pointer and not NULL. -/
def Succeeds (base : PoolBase) (m : Memory) (n : UInt64) : Prop :=
  ∃ p m', allocate base m n = some (p, m') ∧ p ≠ 0

theorem PoolBlocks.succeeds_iff (hb : PoolBlocks base m live bs) (n : UInt64) :
    Succeeds base m n ↔ Serves n.toNat bs := by
  rw [← isSome_firstFit (h := 24)]
  cases hfit : firstFit 24 n.toNat bs with
  | none =>
    obtain ⟨m', hm', -⟩ := hb.allocate_none hfit
    simp [Succeeds, hm']
  | some r =>
    obtain ⟨m', hm', -⟩ := hb.allocate_some hfit
    simp [Succeeds, hm', firstFit_pos (by omega) hfit]

/-- `free` of a live pointer leaves every request possible that was possible
before, and every request that is not larger than what is given back. -/
theorem free_keeps_requests (hrun : PoolRun base m live) {p n : ℕ} (hp : (p, n) ∈ live) :
    ∃ m', free base m p = some m' ∧
      ∀ k : UInt64, k.toNat ≤ n ∨ Succeeds base m k → Succeeds base m' k := by
  obtain ⟨bs, hb⟩ := hrun.blocks
  obtain ⟨m', hm', hb'⟩ := hb.free_some hp
  refine ⟨m', hm', fun k hk => ?_⟩
  rw [hb'.succeeds_iff]
  apply Serves.mergePass
  rcases hk with hk | hk
  · exact serves_release (hb.live.mem_iff.mpr hp) hk
  · exact ((hb.succeeds_iff k).mp hk).release p

theorem free_keeps_requests_boot :
    ∃ m, FreedBetween m ∧
      ∃ m', free bootPool m 1048600 = some m' ∧
        ∀ k : UInt64, k.toNat ≤ 512 ∨ Succeeds bootPool m k → Succeeds bootPool m' k := by
  obtain ⟨m, hm, hrun⟩ := exists_freedBetween
  exact ⟨m, hm, free_keeps_requests hrun (by simp [twoLive] : (1048600, 512) ∈ twoLive)⟩

end Requests

end EtyOS
