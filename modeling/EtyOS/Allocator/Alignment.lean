import EtyOS.Allocator.Safety

/-!
# The alignment of headers and results

`allocate` puts the header of a rest directly behind the bytes that were asked
for and rounds nothing. The run of this file records every header that is
created and every pointer that is returned, and next to them the sizes of the
requests that split a block: the first are all multiples of 8 exactly when the
second are.
-/

namespace EtyOS

open Library FreeList MemoryBlock

/-- `alignof(MemoryBlock)`. -/
def alignofMemoryBlock : ℕ := 8

/-- The `new_block` of `splitBlock`, when the block is split. -/
def splitHeader (m : Memory) (current size : ℕ) : Option ℕ :=
  if MemoryBlock.size m current > add64 size sizeofMemoryBlock then
    some (add64 (add64 current sizeofMemoryBlock) size)
  else none

/-- The header that the walk of `allocateFrom` creates. -/
def allocateHeaderFrom (size : ℕ) : ℕ → Memory → ℕ → Option ℕ
  | 0, _, _ => none
  | steps + 1, m, current =>
    if current = 0 then none
    else if isFree m current ≠ 0 ∧ MemoryBlock.size m current ≥ size then
      splitHeader m current size
    else allocateHeaderFrom size steps m (next m current)

/-- The header that a call of `allocate` creates. -/
def allocateHeader (base : PoolBase) (m : Memory) (size : UInt64) : Option ℕ :=
  allocateHeaderFrom size.toNat memoryPoolSize m base.addr

/-- Runs with a record. `made` holds the headers created and the pointers
returned so far, `splits` the sizes of the requests that split a block. -/
inductive RecordedRun (base : PoolBase) :
    Memory → List (ℕ × ℕ) → (made splits : List ℕ) → Prop
  | init (m : Memory) : RecordedRun base (memoryAllocatorInit base m) [] [base.addr] []
  | allocate {m m' : Memory} {live : List (ℕ × ℕ)} {made splits : List ℕ} {p : ℕ} (n : UInt64) :
    RecordedRun base m live made splits → allocate base m n = some (p, m') →
    RecordedRun base m' (if p = 0 then live else (p, n.toNat) :: live)
      (p :: ((allocateHeader base m n).toList ++ made))
      (if (allocateHeader base m n).isSome then n.toNat :: splits else splits)
  | free {m m' : Memory} {live : List (ℕ × ℕ)} {made splits : List ℕ} {p n : ℕ} :
    RecordedRun base m live made splits → (p, n) ∈ live → free base m p = some m' →
    RecordedRun base m' (live.erase (p, n)) made splits
  | use {m m' : Memory} {live : List (ℕ × ℕ)} {made splits : List ℕ} {p n : ℕ} :
    RecordedRun base m live made splits → (p, n) ∈ live →
    (∀ a, a < p ∨ p + n ≤ a → m' a = m a) → RecordedRun base m' live made splits

variable {base : PoolBase} {m : Memory} {live : List (ℕ × ℕ)} {bs : List Block}

/-- Every run has its record, and the record adds nothing to the run. -/
theorem poolRun_iff_recorded :
    PoolRun base m live ↔ ∃ made splits, RecordedRun base m live made splits := by
  constructor
  · intro hrun
    induction hrun with
    | init m => exact ⟨_, _, RecordedRun.init m⟩
    | allocate n _ hstep ih =>
      obtain ⟨made, splits, hprev⟩ := ih
      exact ⟨_, _, hprev.allocate n hstep⟩
    | free _ hp hstep ih =>
      obtain ⟨made, splits, hprev⟩ := ih
      exact ⟨_, _, hprev.free hp hstep⟩
    | use _ hp hframe ih =>
      obtain ⟨made, splits, hprev⟩ := ih
      exact ⟨_, _, hprev.use hp hframe⟩
  · rintro ⟨made, splits, hrun⟩
    induction hrun with
    | init m => exact PoolRun.init m
    | allocate n _ hstep ih => exact ih.allocate n hstep
    | free _ hp hstep ih => exact ih.free hp hstep
    | use _ hp hframe ih => exact ih.use hp hframe

section Header

/-- The walk creates the header that `firstFit` splits off. -/
theorem allocateHeaderFrom_refines {p lo hi n steps : ℕ} (hc : Chain m p bs)
    (hl : Laid 24 lo hi bs) (hhi : hi < 2 ^ 64) (hsteps : bs.length < steps) :
    allocateHeaderFrom n steps m p = splitOff 24 n bs := by
  induction bs generalizing p lo steps with
  | nil =>
    obtain ⟨steps, rfl⟩ := Nat.exists_eq_succ_of_ne_zero (by omega : steps ≠ 0)
    rw [allocateHeaderFrom, if_pos (show p = 0 from hc)]
    rfl
  | cons b bs ih =>
    obtain ⟨steps, rfl⟩ := Nat.exists_eq_succ_of_ne_zero (by omega : steps ≠ 0)
    obtain ⟨rfl, hp, hsize, hfree, hrest⟩ := hc
    have hend := hl.2.le
    rw [allocateHeaderFrom, if_neg hp, splitOff_cons, hsize]
    by_cases hserve : b.free = true ∧ n ≤ b.size
    · have hadd : add64 n sizeofMemoryBlock = n + 24 :=
        Nat.mod_eq_of_lt (by rw [sizeofMemoryBlock]; omega)
      have hnew : add64 (add64 b.addr sizeofMemoryBlock) n = b.addr + 24 + n := by
        unfold add64 sizeofMemoryBlock
        omega
      rw [if_pos ⟨hfree.mpr hserve.1, hserve.2⟩, if_pos hserve, splitHeader, hadd, hnew, hsize]
    · rw [if_neg fun hboth => hserve ⟨hfree.mp hboth.1, hboth.2⟩, if_neg hserve]
      exact ih hrest hl.2 (by simp only [List.length_cons] at hsteps; omega)

theorem PoolBlocks.allocateHeader (hb : PoolBlocks base m live bs) (n : UInt64) :
    allocateHeader base m n = splitOff 24 n.toNat bs :=
  allocateHeaderFrom_refines hb.chain hb.laid base.fits hb.length_lt

/-- A call that returns NULL creates no header. -/
theorem splitOff_of_none {n : ℕ} (hfit : firstFit 24 n bs = none) : splitOff 24 n bs = none := by
  rw [splitOff, firstFit_eq_none_iff.mp hfit, Option.bind_none]

end Header

section Alignment

/-- What the record says of a reached state: it has every header of the chain,
and its addresses are aligned exactly when the splitting requests were. -/
structure Recorded (bs : List Block) (made splits : List ℕ) : Prop where
  headers : ∀ b ∈ bs, b.addr ∈ made
  aligned : (∀ a ∈ made, alignofMemoryBlock ∣ a) ↔ ∀ n ∈ splits, alignofMemoryBlock ∣ n

theorem recorded_init (hbase : alignofMemoryBlock ∣ base.addr) (n : ℕ) :
    Recorded [⟨base.addr, n, true⟩] [base.addr] [] := by
  constructor
  · simp
  · simpa using hbase

/-- The pointer is a header address and 24 more, the new header is `n` bytes
behind the pointer. -/
theorem Recorded.served {made splits : List ℕ} {n p : ℕ} {bs' : List Block}
    (hrec : Recorded bs made splits) (hfit : firstFit 24 n bs = some (p, bs')) :
    Recorded bs' (p :: ((splitOff 24 n bs).toList ++ made))
      (if (splitOff 24 n bs).isSome then n :: splits else splits) := by
  obtain ⟨⟨b, hb, rfl, hsplit⟩, hblocks⟩ := addr_firstFit hfit
  have hhead : b.addr ∈ made := hrec.headers b hb
  refine ⟨fun c hc => ?_, ?_⟩
  · rcases hblocks c hc with ⟨d, hd, heq⟩ | hnew
    · have hold := hrec.headers d hd
      simp [heq, hold]
    · simp [Option.mem_def.mp hnew]
  · have hpointer : (∀ a ∈ made, alignofMemoryBlock ∣ a) → alignofMemoryBlock ∣ b.addr + 24 :=
      fun hmade => Nat.dvd_add (hmade _ hhead) (by decide)
    cases hnew : splitOff 24 n bs with
    | none =>
      simp only [Option.toList_none, List.nil_append, List.forall_mem_cons, Option.isSome_none,
        Bool.false_eq_true, if_false, ← hrec.aligned]
      exact and_iff_right_of_imp hpointer
    | some a =>
      obtain rfl := hsplit a hnew
      simp only [Option.toList_some, List.singleton_append, List.forall_mem_cons,
        Option.isSome_some, if_true, ← hrec.aligned]
      constructor
      · rintro ⟨hp, ha, hmade⟩
        exact ⟨(Nat.dvd_add_right hp).mp ha, hmade⟩
      · rintro ⟨hn, hmade⟩
        exact ⟨hpointer hmade, Nat.dvd_add (hpointer hmade) hn, hmade⟩

theorem Recorded.freed {made splits : List ℕ} (hrec : Recorded bs made splits) (p : ℕ) :
    Recorded (mergePass 24 (release 24 p bs)) made splits := by
  refine ⟨fun c hc => ?_, hrec.aligned⟩
  obtain ⟨d, hd, heq⟩ := addr_mergePass hc
  obtain ⟨b, hb, heq'⟩ := addr_release hd
  rw [heq, heq']
  exact hrec.headers b hb

theorem RecordedRun.recorded {made splits : List ℕ}
    (hrun : RecordedRun base m live made splits) (hbase : alignofMemoryBlock ∣ base.addr) :
    ∃ bs, PoolBlocks base m live bs ∧ Recorded bs made splits := by
  induction hrun with
  | init m => exact ⟨_, poolBlocks_init m, recorded_init hbase _⟩
  | allocate n _ hstep ih =>
    obtain ⟨bs, hb, hrec⟩ := ih
    refine ⟨_, hb.after_allocate hstep, ?_⟩
    rw [hb.allocateHeader]
    cases hfit : firstFit 24 n.toNat bs with
    | none =>
      -- NULL is a multiple of 8
      obtain ⟨m₁, hm₁, -⟩ := hb.allocate_none hfit
      obtain ⟨rfl, rfl⟩ := Prod.mk.inj (Option.some.inj (hm₁.symm.trans hstep))
      rw [splitOff_of_none hfit]
      refine ⟨fun b hmem => List.mem_cons_of_mem _ (hrec.headers b hmem), ?_⟩
      simpa using hrec.aligned
    | some r =>
      obtain ⟨m₁, hm₁, -⟩ := hb.allocate_some hfit
      obtain ⟨rfl, rfl⟩ := Prod.mk.inj (Option.some.inj (hm₁.symm.trans hstep))
      exact hrec.served hfit
  | free _ hp hstep ih =>
    obtain ⟨bs, hb, hrec⟩ := ih
    exact ⟨_, hb.after_free hp hstep, hrec.freed _⟩
  | use _ hp hframe ih =>
    obtain ⟨bs, hb, hrec⟩ := ih
    exact ⟨bs, hb.after_use hp hframe, hrec⟩

/-- In a pool that starts at a multiple of 8, all headers that a run creates
and all pointers that it returns are multiples of 8 exactly when every request
that splits a block asks for a multiple of 8 bytes. -/
theorem allocator_aligned_iff {made splits : List ℕ}
    (hrun : RecordedRun base m live made splits) (hbase : alignofMemoryBlock ∣ base.addr) :
    (∀ a ∈ made, alignofMemoryBlock ∣ a) ↔ ∀ n ∈ splits, alignofMemoryBlock ∣ n := by
  obtain ⟨bs, -, hrec⟩ := hrun.recorded hbase
  exact hrec.aligned

/-- The first request of a run splits the pool behind the bytes it asks for. -/
theorem recordedRun_first {n : UInt64} (hn : n.toNat + 48 < memoryPoolSize) :
    ∃ m, RecordedRun bootPool m [(bootPool.addr + 24, n.toNat)]
      [bootPool.addr + 24, bootPool.addr + 24 + n.toNat, bootPool.addr] [n.toNat] := by
  have hinit : PoolBlocks bootPool (memoryAllocatorInit bootPool fun _ => 0) []
      [⟨bootPool.addr, memoryPoolSize - sizeofMemoryBlock, true⟩] := poolBlocks_init _
  have hsize : memoryPoolSize - sizeofMemoryBlock = 104857576 := by decide
  have hpool : memoryPoolSize = 104857600 := by decide
  have hserve : n.toNat ≤ 104857576 := by omega
  have hbig : n.toNat + 24 < 104857576 := by omega
  rw [hsize] at hinit
  obtain ⟨m, hm, -⟩ := hinit.allocate_some (p := bootPool.addr + 24) (by
    rw [firstFit, if_pos ⟨rfl, hserve⟩])
  have hheader : allocateHeader bootPool (memoryAllocatorInit bootPool fun _ => 0) n =
      some (bootPool.addr + 24 + n.toNat) := by
    rw [hinit.allocateHeader, splitOff_cons, if_pos ⟨rfl, hserve⟩, if_pos hbig]
  refine ⟨m, ?_⟩
  have hrun := (RecordedRun.init fun _ => 0).allocate n hm
  rw [hheader, if_neg (by decide : bootPool.addr + 24 ≠ 0)] at hrun
  exact hrun

theorem allocator_aligned_boot :
    ∃ m, RecordedRun bootPool m [(bootPool.addr + 24, 512)]
        [bootPool.addr + 24, bootPool.addr + 24 + 512, bootPool.addr] [512] ∧
      ((∀ a ∈ [bootPool.addr + 24, bootPool.addr + 24 + 512, bootPool.addr],
        alignofMemoryBlock ∣ a) ↔ ∀ n ∈ [512], alignofMemoryBlock ∣ n) := by
  obtain ⟨m, hrun⟩ := recordedRun_first (n := 512) (by decide)
  exact ⟨m, hrun, allocator_aligned_iff hrun (by decide)⟩

/-- After `allocate(1)` the header of the rest is at an odd address. -/
theorem allocate_misaligns :
    alignofMemoryBlock ∣ bootPool.addr ∧
      ∃ m, RecordedRun bootPool m [(bootPool.addr + 24, 1)]
          [bootPool.addr + 24, bootPool.addr + 24 + 1, bootPool.addr] [1] ∧
        ¬alignofMemoryBlock ∣ bootPool.addr + 24 + 1 := by
  obtain ⟨m, hrun⟩ := recordedRun_first (n := 1) (by decide)
  exact ⟨by decide, m, hrun, by decide⟩

end Alignment

end EtyOS
