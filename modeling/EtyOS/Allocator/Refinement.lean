import EtyOS.Library.FreeList
import EtyOS.Allocator.MemoryAllocator

/-!
# The byte-level allocator refines the free list

`Chain m p bs` says that following `next` from `p` in the memory `m` meets
exactly the blocks `bs` and then NULL. The two walks are followed step by step:
each writes inside the block it stands on, so the frame below the current
block carries the headers already passed.
-/

namespace EtyOS

open Library FreeList MemoryBlock

/-- The chain of headers from `p` is the list `bs` and ends in NULL. -/
def Chain (m : Memory) : ℕ → List Block → Prop
  | p, [] => p = 0
  | p, b :: bs => p = b.addr ∧ p ≠ 0 ∧ MemoryBlock.size m p = b.size ∧
      (isFree m p ≠ 0 ↔ b.free = true) ∧ Chain m (next m p) bs

section Headers

/-- Writing one field of a header leaves the rest of the memory alone. -/
theorem setSize_frame (m : Memory) {p a : ℕ} (v : ℕ) (h : a < p ∨ p + 8 ≤ a) :
    setSize m p v a = m a := Memory.store_frame m v (by omega)

theorem setIsFree_frame (m : Memory) {p a : ℕ} (v : ℕ) (h : a < p + 8 ∨ p + 12 ≤ a) :
    setIsFree m p v a = m a := Memory.store_frame m v (by omega)

theorem setNext_frame (m : Memory) {p a : ℕ} (v : ℕ) (h : a < p + 16 ∨ p + 24 ≤ a) :
    setNext m p v a = m a := Memory.store_frame m v (by omega)

variable (m : Memory) (p v : ℕ)

@[simp] theorem size_setSize (hv : v < 2 ^ 64) : MemoryBlock.size (setSize m p v) p = v :=
  Memory.load_store_of_lt m (by norm_num at hv ⊢; exact hv)

@[simp] theorem isFree_setSize : isFree (setSize m p v) p = isFree m p :=
  Memory.load_store_disjoint m v (by omega)

@[simp] theorem next_setSize : next (setSize m p v) p = next m p :=
  Memory.load_store_disjoint m v (by omega)

@[simp] theorem size_setIsFree : MemoryBlock.size (setIsFree m p v) p = MemoryBlock.size m p :=
  Memory.load_store_disjoint m v (by omega)

@[simp] theorem isFree_setIsFree (hv : v < 2 ^ 32) : isFree (setIsFree m p v) p = v :=
  Memory.load_store_of_lt m (by norm_num at hv ⊢; exact hv)

@[simp] theorem next_setIsFree : next (setIsFree m p v) p = next m p :=
  Memory.load_store_disjoint m v (by omega)

@[simp] theorem size_setNext : MemoryBlock.size (setNext m p v) p = MemoryBlock.size m p :=
  Memory.load_store_disjoint m v (by omega)

@[simp] theorem isFree_setNext : isFree (setNext m p v) p = isFree m p :=
  Memory.load_store_disjoint m v (by omega)

@[simp] theorem next_setNext (hv : v < 2 ^ 64) : next (setNext m p v) p = v :=
  Memory.load_store_of_lt m (by norm_num at hv ⊢; exact hv)

theorem next_lt : next m p < 2 ^ 64 := by
  have h := Memory.load_lt m (p + 16) 8
  norm_num at h ⊢
  exact h

variable {m p} {m' : Memory}

/-- A header is read from its own 24 bytes. -/
theorem header_congr (h : ∀ a, p ≤ a → a < p + 24 → m' a = m a) :
    MemoryBlock.size m' p = MemoryBlock.size m p ∧ isFree m' p = isFree m p ∧
      next m' p = next m p :=
  ⟨Memory.load_congr fun a _ _ => h a (by omega) (by omega),
    Memory.load_congr fun a _ _ => h a (by omega) (by omega),
    Memory.load_congr fun a _ _ => h a (by omega) (by omega)⟩

end Headers

section Chain

variable {m m' : Memory}

/-- A chain whose first header is untouched goes on with whatever follows it. -/
theorem Chain.recons {p : ℕ} {b : Block} {bs cs : List Block} (hc : Chain m p (b :: bs))
    (h : ∀ a, p ≤ a → a < p + 24 → m' a = m a) (htail : Chain m' (next m p) cs) :
    Chain m' p (b :: cs) := by
  obtain ⟨haddr, hp, hsize, hfree, -⟩ := hc
  obtain ⟨hs, hf, hn⟩ := header_congr h
  refine ⟨haddr, hp, hs.trans hsize, ?_, ?_⟩
  · rw [hf]
    exact hfree
  · rw [hn]
    exact htail

/-- A chain depends on the headers of its blocks only. -/
theorem Chain.congr {p lo hi : ℕ} {bs : List Block} (hc : Chain m p bs) (hl : Laid 24 lo hi bs)
    (h : ∀ b ∈ bs, ∀ a, b.addr ≤ a → a < b.addr + 24 → m' a = m a) : Chain m' p bs := by
  induction bs generalizing p lo with
  | nil => exact hc
  | cons b bs ih =>
    obtain ⟨rfl, -, -, -, hrest⟩ := id hc
    exact hc.recons (h b (by simp)) (ih hrest hl.2 fun c hc => h c (by simp [hc]))

/-- Memories that agree from `lo` on have the same chains there. -/
theorem Chain.congr_above {p lo hi : ℕ} {bs : List Block} (hc : Chain m p bs)
    (hl : Laid 24 lo hi bs) (h : ∀ a, lo ≤ a → m' a = m a) : Chain m' p bs :=
  hc.congr hl fun _ hb a ha _ => h a (by have := (hl.mem hb).1; omega)

/-- The list a chain stands for is determined by the memory. -/
theorem Chain.unique {p : ℕ} {bs cs : List Block} (hb : Chain m p bs) (hc : Chain m p cs) :
    bs = cs := by
  induction bs generalizing p cs with
  | nil =>
    cases cs with
    | nil => rfl
    | cons c cs => exact absurd hb hc.2.1
  | cons b bs ih =>
    cases cs with
    | nil => exact absurd hc hb.2.1
    | cons c cs =>
      obtain ⟨haddr, -, hsize, hfree, hrest⟩ := hb
      obtain ⟨haddr', -, hsize', hfree', hrest'⟩ := hc
      have hblock : b = c := Block.ext (haddr.symm.trans haddr') (hsize.symm.trans hsize')
        (Bool.eq_iff_iff.mpr (hfree.symm.trans hfree'))
      rw [hblock, ih hrest hrest']

/-- A chain inside an arena has fewer blocks than the arena has bytes. -/
theorem length_lt_of_laid {lo hi : ℕ} {bs : List Block} (hl : Laid 24 lo hi bs) :
    24 * bs.length ≤ hi - lo := by
  induction bs generalizing lo with
  | nil => simp
  | cons b bs ih =>
    have hrest := ih hl.2
    have hle := hl.2.le
    have hfirst := hl.1
    simp only [List.length_cons]
    omega

end Chain

section Allocate

variable {m : Memory}

/-- The memory after the matching block has served a request. -/
def serve (m : Memory) (p size : ℕ) : Memory :=
  setSize (setIsFree (splitBlock m p size) p 0) p size

/-- A split writes inside the block that is split. -/
theorem serve_frame {p n a : ℕ} (hn : n ≤ MemoryBlock.size m p)
    (hp : p + 24 + MemoryBlock.size m p < 2 ^ 64)
    (ha : a < p ∨ p + 24 + MemoryBlock.size m p ≤ a) : serve m p n a = m a := by
  rw [serve, setSize_frame _ _ (by omega), setIsFree_frame _ _ (by omega), splitBlock]
  split
  · rename_i hsplit
    have hadd : add64 n sizeofMemoryBlock = n + 24 := Nat.mod_eq_of_lt (by rw [sizeofMemoryBlock]; omega)
    rw [hadd] at hsplit
    have hnew : add64 (add64 p sizeofMemoryBlock) n = p + 24 + n := by
      unfold add64 sizeofMemoryBlock
      omega
    simp only [hnew]
    rw [setNext_frame _ _ (by omega), setNext_frame _ _ (by omega),
      setIsFree_frame _ _ (by omega), setSize_frame _ _ (by omega)]
  · rfl

/-- The header of the block that serves a request. -/
theorem serve_header {p n : ℕ} (hn : n < 2 ^ 64) :
    MemoryBlock.size (serve m p n) p = n ∧ isFree (serve m p n) p = 0 ∧
      next (serve m p n) p = next (splitBlock m p n) p := by
  refine ⟨size_setSize _ _ _ hn, ?_, ?_⟩
  · rw [serve, isFree_setSize, isFree_setIsFree _ _ _ (by omega)]
  · rw [serve, next_setSize, next_setIsFree]

/-- The headers that a split leaves: the old one points to the new one, which
has the rest of the payload and the old successor. -/
theorem splitBlock_headers {p n : ℕ} (hp : p + 24 + MemoryBlock.size m p < 2 ^ 64)
    (hbig : n + 24 < MemoryBlock.size m p) :
    next (splitBlock m p n) p = p + 24 + n ∧
      MemoryBlock.size (splitBlock m p n) (p + 24 + n) = MemoryBlock.size m p - n - 24 ∧
      isFree (splitBlock m p n) (p + 24 + n) = 1 ∧
      next (splitBlock m p n) (p + 24 + n) = next m p := by
  have hadd : add64 n sizeofMemoryBlock = n + 24 :=
    Nat.mod_eq_of_lt (by rw [sizeofMemoryBlock]; omega)
  have hnew : add64 (add64 p sizeofMemoryBlock) n = p + 24 + n := by
    unfold add64 sizeofMemoryBlock
    omega
  have hrem : sub64 (sub64 (MemoryBlock.size m p) n) sizeofMemoryBlock =
      MemoryBlock.size m p - n - 24 := by
    unfold sub64 sizeofMemoryBlock
    omega
  rw [splitBlock, if_pos (by rw [hadd]; exact hbig)]
  simp only [hnew, hrem]
  set q := p + 24 + n with hq
  set m₁ := setIsFree (setSize m q (MemoryBlock.size m p - n - 24)) q 1 with hm₁
  have hold : next m₁ p = next m p := by
    refine (header_congr fun a _ _ => ?_).2.2
    rw [hm₁, setIsFree_frame _ _ (by omega), setSize_frame _ _ (by omega)]
  have hfar : ∀ a, q ≤ a → a < q + 24 →
      setNext (setNext m₁ q (next m₁ p)) p q a = setNext m₁ q (next m₁ p) a :=
    fun a _ _ => setNext_frame _ _ (by omega)
  obtain ⟨hs, hf, hx⟩ := header_congr hfar
  refine ⟨next_setNext _ _ _ (by omega), ?_, ?_, ?_⟩
  · rw [hs, size_setNext, hm₁, size_setIsFree, size_setSize _ _ _ (by omega)]
  · rw [hf, isFree_setNext, hm₁, isFree_setIsFree _ _ _ (by omega)]
  · rw [hx, next_setNext _ _ _ (next_lt _ _), hold]

/-- The block that serves a request becomes its `cut`. -/
theorem chain_serve {p n hi : ℕ} {b : Block} {bs : List Block} (hc : Chain m p (b :: bs))
    (hl : Laid 24 p hi (b :: bs)) (hhi : hi < 2 ^ 64) (hn : n ≤ b.size) :
    Chain (serve m p n) p (cut 24 n b ++ bs) := by
  obtain ⟨rfl, hp, hsize, hfree, hrest⟩ := hc
  have hend := hl.2.le
  have habove : ∀ a, b.addr + 24 + b.size ≤ a → serve m b.addr n a = m a := fun a ha =>
    serve_frame (by omega) (by omega) (by omega)
  have hrest' : Chain (serve m b.addr n) (next m b.addr) bs := hrest.congr_above hl.2 habove
  obtain ⟨hserved, hused, hnext⟩ := serve_header (m := m) (p := b.addr) (n := n) (by omega)
  unfold cut
  split
  · -- the rest of the block becomes a free block of its own
    rename_i hbig
    obtain ⟨hlink, hs, hf, hx⟩ := splitBlock_headers (m := m) (p := b.addr) (n := n) (by omega)
      (by omega)
    have hkept : ∀ a, b.addr + 24 + n ≤ a → a < b.addr + 24 + n + 24 →
        serve m b.addr n a = splitBlock m b.addr n a := by
      intro a _ _
      rw [serve, setSize_frame _ _ (by omega), setIsFree_frame _ _ (by omega)]
    obtain ⟨hs', hf', hx'⟩ := header_congr hkept
    refine ⟨rfl, hp, hserved, by simp [hused], ?_⟩
    rw [hnext, hlink]
    refine ⟨rfl, by omega, ?_, ?_, ?_⟩
    · rw [hs', hs, hsize]
    · rw [hf', hf]
      simp
    · rw [hx', hx]
      exact hrest'
  · -- a remainder of at most one header stays with the block, unlisted
    rename_i hsmall
    have hadd : add64 n sizeofMemoryBlock = n + 24 :=
      Nat.mod_eq_of_lt (by rw [sizeofMemoryBlock]; omega)
    have hsplit : splitBlock m b.addr n = m := if_neg (by rw [hsize, hadd]; omega)
    refine ⟨rfl, hp, hserved, by simp [hused], ?_⟩
    rw [hnext, hsplit]
    exact hrest'

/-- The walk of `allocate` computes `firstFit` on the chain: it comes back, and
it changes no byte below the chain or from its end on. -/
theorem allocateFrom_refines {p lo hi n steps : ℕ} {bs : List Block} (hc : Chain m p bs)
    (hl : Laid 24 lo hi bs) (hhi : hi < 2 ^ 64) (hsteps : bs.length < steps) :
    ∃ m', allocateFrom n steps m p = some (((firstFit 24 n bs).map Prod.fst).getD 0, m') ∧
      Chain m' p (((firstFit 24 n bs).map Prod.snd).getD bs) ∧
      ∀ a, a < lo ∨ hi ≤ a → m' a = m a := by
  induction bs generalizing p lo steps with
  | nil =>
    obtain ⟨steps, rfl⟩ := Nat.exists_eq_succ_of_ne_zero (by omega : steps ≠ 0)
    exact ⟨m, by rw [allocateFrom, if_pos (show p = 0 from hc)]; rfl, hc, fun a _ => rfl⟩
  | cons b bs ih =>
    obtain ⟨steps, rfl⟩ := Nat.exists_eq_succ_of_ne_zero (by omega : steps ≠ 0)
    obtain ⟨rfl, hp, hsize, hfree, hrest⟩ := id hc
    have hlo := hl.1
    have hend := hl.2.le
    rw [allocateFrom, if_neg hp, firstFit]
    by_cases hserve : b.free = true ∧ n ≤ b.size
    · rw [if_pos hserve, if_pos ⟨hfree.mpr hserve.1, by rw [hsize]; exact hserve.2⟩]
      refine ⟨serve m b.addr n, ?_, chain_serve hc ⟨le_rfl, hl.2⟩ hhi hserve.2, fun a ha =>
        serve_frame (by omega) (by omega) (by omega)⟩
      have hret : add64 b.addr sizeofMemoryBlock = b.addr + 24 :=
        Nat.mod_eq_of_lt (by rw [sizeofMemoryBlock]; omega)
      simp only [hret, serve, Option.map_some, Option.getD_some]
    · rw [if_neg hserve, if_neg fun h => hserve ⟨hfree.mp h.1, by rw [← hsize]; exact h.2⟩]
      obtain ⟨m', hrun, hchain, hframe⟩ := ih hrest hl.2
        (show bs.length < steps by simpa using hsteps)
      refine ⟨m', ?_, ?_, fun a ha => hframe a (by omega)⟩
      · rw [hrun]
        cases firstFit 24 n bs <;> rfl
      · have hcons := hc.recons (fun a _ _ => hframe a (by omega)) hchain
        cases hfit : firstFit 24 n bs <;> simpa [hfit] using hcons

end Allocate

section Free

variable {m : Memory}

/-- Marking the header before a payload pointer is `release`. -/
theorem chain_setIsFree {q p : ℕ} {bs : List Block} (hc : Chain m p bs)
    (hsep : ∀ b ∈ bs, b.addr = q ∨ b.addr + 24 ≤ q ∨ q + 24 ≤ b.addr) :
    Chain (setIsFree m q 1) p (release 24 (q + 24) bs) := by
  induction bs generalizing p with
  | nil => exact hc
  | cons b bs ih =>
    obtain ⟨rfl, hp, hsize, hfree, hrest⟩ := id hc
    have hrest' := ih hrest fun c hc => hsep c (by simp [hc])
    rw [release, List.map_cons]
    by_cases hb : b.addr = q
    · subst hb
      rw [if_pos rfl]
      refine ⟨rfl, hp, by rw [size_setIsFree, hsize], ?_, by rw [next_setIsFree]; exact hrest'⟩
      rw [isFree_setIsFree _ _ _ (by omega)]
      simp
    · have hapart := (hsep b (by simp)).resolve_left hb
      rw [if_neg (by omega)]
      exact hc.recons (fun a _ _ => setIsFree_frame _ _ (by omega)) hrest'

/-- Joining a block with its successor rewrites the header of the block only. -/
theorem mergeNext_frame {p a : ℕ} (ha : a < p ∨ p + 24 ≤ a) : mergeNext m p a = m a := by
  rw [mergeNext, setNext_frame _ _ (by omega), setSize_frame _ _ (by omega)]

/-- The header of a joined block: both payloads and the header between them. -/
theorem mergeNext_header {p : ℕ} {b c : Block} {bs : List Block} (hc : Chain m p (b :: c :: bs))
    {lo hi : ℕ} (hl : Laid 24 lo hi (b :: c :: bs)) (hhi : hi < 2 ^ 64) :
    MemoryBlock.size (mergeNext m p) p = b.size + 24 + c.size ∧
      isFree (mergeNext m p) p = isFree m p ∧
      next (mergeNext m p) p = next m (next m p) := by
  obtain ⟨rfl, -, hsize, -, hnext, -, hsize', -, -⟩ := hc
  have hc' := hl.2.1
  have hend := hl.2.2.le
  have hsum : add64 (MemoryBlock.size m b.addr)
      (add64 sizeofMemoryBlock (MemoryBlock.size m (next m b.addr))) = b.size + 24 + c.size := by
    rw [hsize, hsize', add64, add64, sizeofMemoryBlock]
    omega
  have hfar : ∀ a, c.addr ≤ a → a < c.addr + 24 →
      setSize m b.addr (b.size + 24 + c.size) a = m a := fun a _ _ =>
    setSize_frame _ _ (by omega)
  rw [mergeNext, hsum, next_setSize, hnext, (header_congr hfar).2.2, size_setNext,
    size_setSize _ _ _ (by omega), isFree_setNext, isFree_setSize, next_setNext _ _ _ (next_lt _ _)]
  exact ⟨rfl, rfl, rfl⟩

/-- Two free neighbours become one free block. -/
theorem chain_mergeNext {p lo hi : ℕ} {b c : Block} {bs : List Block}
    (hc : Chain m p (b :: c :: bs)) (hl : Laid 24 lo hi (b :: c :: bs)) (hhi : hi < 2 ^ 64)
    (hfree : b.free = true) :
    Chain (mergeNext m p) p (⟨b.addr, b.size + 24 + c.size, true⟩ :: bs) := by
  obtain ⟨hs, hf, hn⟩ := mergeNext_header hc hl hhi
  obtain ⟨rfl, hp, hsize, hbfree, hnext, -, -, -, hrest⟩ := hc
  have hc' := hl.2.1
  refine ⟨rfl, hp, hs, ?_, ?_⟩
  · rw [hf, hbfree]
    exact iff_of_true hfree rfl
  · rw [hn]
    exact hrest.congr_above hl.2.2 fun a ha => mergeNext_frame (by omega)

/-- The walk of `free` computes `mergePass` on the chain: it comes back, and it
changes no byte below the chain or from its end on. -/
theorem coalesceFrom_refines {p lo hi steps : ℕ} {bs : List Block} (hc : Chain m p bs)
    (hl : Laid 24 lo hi bs) (hhi : hi < 2 ^ 64) (hsteps : bs.length < steps) :
    ∃ m', coalesceFrom steps m p = some m' ∧ Chain m' p (mergePass 24 bs) ∧
      ∀ a, a < lo ∨ hi ≤ a → m' a = m a := by
  induction bs using mergePass.induct generalizing m p lo steps with
  | case1 b c bs hfree ih =>
    obtain ⟨steps, rfl⟩ := Nat.exists_eq_succ_of_ne_zero (by omega : steps ≠ 0)
    have hmerged := chain_mergeNext hc hl hhi hfree.1
    obtain ⟨rfl, hp, -, hbfree, -, hp', -, hcfree, -⟩ := hc
    have hlo := hl.1
    have hc' := hl.2.1
    have hend := hl.2.2.le
    obtain ⟨m', hrun, hchain, hframe⟩ := ih hmerged.2.2.2.2 hl.2.2
      (show bs.length < steps by simp only [List.length_cons] at hsteps; omega)
    refine ⟨m', ?_, ?_, ?_⟩
    · rw [coalesceFrom, if_neg (not_or.mpr ⟨hp, hp'⟩),
        if_pos ⟨hbfree.mpr hfree.1, hcfree.mpr hfree.2⟩]
      exact hrun
    · rw [mergePass, if_pos hfree]
      exact hmerged.recons (fun a _ _ => hframe a (by omega)) hchain
    · intro a ha
      rw [hframe a (by omega), mergeNext_frame (by omega)]
  | case2 b c bs hfree ih =>
    obtain ⟨steps, rfl⟩ := Nat.exists_eq_succ_of_ne_zero (by omega : steps ≠ 0)
    obtain ⟨rfl, hp, -, hbfree, hrest⟩ := id hc
    have hlo := hl.1
    have hend := hl.2.le
    have hnot : ¬(isFree m b.addr ≠ 0 ∧ isFree m (next m b.addr) ≠ 0) := fun h =>
      hfree ⟨hbfree.mp h.1, hrest.2.2.2.1.mp h.2⟩
    have hne : next m b.addr ≠ 0 := hrest.2.1
    rw [coalesceFrom, if_neg (not_or.mpr ⟨hp, hne⟩), if_neg hnot, mergePass, if_neg hfree]
    obtain ⟨m', hrun, hchain, hframe⟩ := ih hrest hl.2
      (show (c :: bs).length < steps by simp only [List.length_cons] at hsteps ⊢; omega)
    exact ⟨m', hrun, hc.recons (fun a _ _ => hframe a (by omega)) hchain,
      fun a ha => hframe a (by omega)⟩
  | case3 b =>
    obtain ⟨steps, rfl⟩ := Nat.exists_eq_succ_of_ne_zero (by omega : steps ≠ 0)
    have hlast : next m p = 0 := hc.2.2.2.2
    exact ⟨m, by rw [coalesceFrom, if_pos (Or.inr hlast)], hc, fun a _ => rfl⟩
  | case4 =>
    obtain ⟨steps, rfl⟩ := Nat.exists_eq_succ_of_ne_zero (by omega : steps ≠ 0)
    have hnull : p = 0 := hc
    exact ⟨m, by rw [coalesceFrom, if_pos (Or.inl hnull)], hc, fun a _ => rfl⟩

end Free

end EtyOS
