import Mathlib.Tactic
import Mathlib.Data.List.Basic
import Mathlib.Data.List.Perm.Basic

/-!
# First-fit allocation over an ordered block list

An arena is a list of blocks in address order. Every block is a header of `h`
bytes followed by its payload; bytes between the end of one block and the next
header belong to nobody, so the blocks need not tile the arena. `firstFit`
takes the first free block that is large enough, `release` marks a block free
and `mergePass` walks the list once and joins a free block with a free
successor, which leaves at most half of the pairs (`freePairs_mergePass`). `Laid` is the invariant the three operations keep, and `used` is
what the owners of the arena see of it. One walk does not always join all free
neighbours (`noTwoFree_mergePass`) and a request can lose the end of its block
(`total_firstFit`); both results say exactly when. A release costs nobody a
request that would have been served (`Serves.release`, `Serves.mergePass`).
-/

namespace EtyOS.Library

@[ext]
structure Block where
  addr : ℕ
  size : ℕ
  free : Bool
  deriving DecidableEq, Repr

namespace FreeList

variable (h : ℕ)

/-- The blocks lie in increasing order between `lo` and `hi`, without overlap. -/
def Laid (lo hi : ℕ) : List Block → Prop
  | [] => lo ≤ hi
  | b :: bs => lo ≤ b.addr ∧ Laid (b.addr + h + b.size) hi bs

/-- What becomes of a free block that serves a request of `n` bytes. The rest
is split off only when it can hold a header and at least one byte. -/
def cut (n : ℕ) (b : Block) : List Block :=
  if n + h < b.size then
    [⟨b.addr, n, false⟩, ⟨b.addr + h + n, b.size - n - h, true⟩]
  else [⟨b.addr, n, false⟩]

/-- Serve a request from the first free block that is large enough. -/
def firstFit (n : ℕ) : List Block → Option (ℕ × List Block)
  | [] => none
  | b :: bs =>
    if b.free = true ∧ n ≤ b.size then some (b.addr + h, cut h n b ++ bs)
    else (firstFit n bs).map fun r => (r.1, b :: r.2)

/-- Mark the block whose payload starts at `p` as free. -/
def release (p : ℕ) (bs : List Block) : List Block :=
  bs.map fun b => if b.addr + h = p then { b with free := true } else b

/-- One walk that joins a free block with a free successor and moves on. -/
def mergePass : List Block → List Block
  | a :: b :: rest =>
    if a.free = true ∧ b.free = true then
      ⟨a.addr, a.size + h + b.size, true⟩ :: mergePass rest
    else a :: mergePass (b :: rest)
  | [a] => [a]
  | [] => []

/-- The allocations the list stands for: payload start and size. -/
def used (bs : List Block) : List (ℕ × ℕ) :=
  (bs.filter fun b => !b.free).map fun b => (b.addr + h, b.size)

section FirstFit

variable {h}

/-- A served request replaces the first block that is large enough by its cut. -/
theorem firstFit_cases {n p : ℕ} {bs bs' : List Block} (hfit : firstFit h n bs = some (p, bs')) :
    ∃ as b cs, bs = as ++ b :: cs ∧ bs' = as ++ (cut h n b ++ cs) ∧ p = b.addr + h ∧
      (b.free = true ∧ n ≤ b.size) ∧
      bs.find? (fun b => b.free && n ≤ b.size) = some b := by
  induction bs generalizing bs' with
  | nil => simp [firstFit] at hfit
  | cons b bs ih =>
    unfold firstFit at hfit
    split at hfit
    · rename_i hserve
      obtain ⟨rfl, rfl⟩ := Prod.mk.inj (Option.some.inj hfit)
      exact ⟨[], b, bs, rfl, rfl, rfl, hserve, List.find?_cons_of_pos (by simpa using hserve)⟩
    · rename_i hserve
      obtain ⟨r, hr, heq⟩ := Option.map_eq_some_iff.mp hfit
      obtain ⟨rfl, rfl⟩ := Prod.mk.inj heq
      obtain ⟨as, c, cs, hbs, hbs', hp, hserves, hfind⟩ := ih hr
      refine ⟨b :: as, c, cs, by rw [hbs]; rfl, by rw [hbs']; rfl, hp, hserves, ?_⟩
      rw [List.find?_cons_of_neg (by simpa using hserve), hfind]

theorem firstFit_eq_none_iff {n : ℕ} {bs : List Block} :
    firstFit h n bs = none ↔ bs.find? (fun b => b.free && n ≤ b.size) = none := by
  induction bs with
  | nil => simp [firstFit]
  | cons b bs ih =>
    unfold firstFit
    by_cases hserve : b.free = true ∧ n ≤ b.size
    · simp [hserve]
    · rw [if_neg hserve, Option.map_eq_none_iff, ih,
        List.find?_cons_of_neg (by simpa using hserve)]

end FirstFit

section Laid

variable {h}

theorem Laid.weaken {lo lo' hi : ℕ} {bs : List Block} (hbs : Laid h lo hi bs) (hlo : lo' ≤ lo) :
    Laid h lo' hi bs := by
  cases bs with
  | nil => exact le_trans hlo hbs
  | cons b bs => exact ⟨le_trans hlo hbs.1, hbs.2⟩

theorem Laid.le {lo hi : ℕ} {bs : List Block} (hbs : Laid h lo hi bs) : lo ≤ hi := by
  induction bs generalizing lo with
  | nil => exact hbs
  | cons b bs ih =>
    have hfirst := hbs.1
    have hrest := ih hbs.2
    omega

/-- Every block lies between the bounds. -/
theorem Laid.mem {lo hi : ℕ} {bs : List Block} (hbs : Laid h lo hi bs) {b : Block}
    (hb : b ∈ bs) : lo ≤ b.addr ∧ b.addr + h + b.size ≤ hi := by
  induction bs generalizing lo with
  | nil => simp at hb
  | cons c bs ih =>
    have hc := hbs.1
    rcases List.mem_cons.mp hb with rfl | hb
    · exact ⟨hc, hbs.2.le⟩
    · have hrest := ih hbs.2 hb
      omega

/-- A block ends before every later block begins. -/
theorem Laid.pairwise {lo hi : ℕ} {bs : List Block} (hbs : Laid h lo hi bs) :
    bs.Pairwise fun a b => a.addr + h + a.size ≤ b.addr := by
  induction bs generalizing lo with
  | nil => exact List.Pairwise.nil
  | cons c bs ih => exact List.pairwise_cons.mpr ⟨fun b hb => (hbs.2.mem hb).1, ih hbs.2⟩

/-- Two blocks of the list are the same block or do not overlap. -/
theorem Laid.separate {lo hi : ℕ} {bs : List Block} (hbs : Laid h lo hi bs) {a b : Block}
    (ha : a ∈ bs) (hb : b ∈ bs) :
    a = b ∨ a.addr + h + a.size ≤ b.addr ∨ b.addr + h + b.size ≤ a.addr := by
  by_cases hab : a = b
  · exact Or.inl hab
  · have hpair : bs.Pairwise fun a b =>
        a.addr + h + a.size ≤ b.addr ∨ b.addr + h + b.size ≤ a.addr :=
      hbs.pairwise.imp Or.inl
    have hsymm : Std.Symm fun a b : Block =>
        a.addr + h + a.size ≤ b.addr ∨ b.addr + h + b.size ≤ a.addr :=
      ⟨fun _ _ hor => hor.symm⟩
    exact Or.inr (hpair.forall ha hb hab)

theorem Laid.cut {lo hi n : ℕ} {b : Block} {bs : List Block} (hbs : Laid h lo hi (b :: bs))
    (hn : n ≤ b.size) : Laid h lo hi (cut h n b ++ bs) := by
  have hfirst := hbs.1
  unfold FreeList.cut
  split
  · exact ⟨hfirst, le_rfl, hbs.2.weaken (by dsimp only; omega)⟩
  · exact ⟨hfirst, hbs.2.weaken (by dsimp only; omega)⟩

theorem Laid.firstFit {lo hi n p : ℕ} {bs bs' : List Block} (hbs : Laid h lo hi bs)
    (hfit : firstFit h n bs = some (p, bs')) : Laid h lo hi bs' := by
  obtain ⟨as, b, cs, rfl, rfl, -, hserve, -⟩ := firstFit_cases hfit
  clear hfit
  induction as generalizing lo with
  | nil => exact hbs.cut hserve.2
  | cons a as ih => exact ⟨hbs.1, ih hbs.2⟩

theorem Laid.release {lo hi : ℕ} {bs : List Block} (hbs : Laid h lo hi bs) (p : ℕ) :
    Laid h lo hi (release h p bs) := by
  induction bs generalizing lo with
  | nil => exact hbs
  | cons b bs ih =>
    have hrest := ih hbs.2
    simp only [FreeList.release, List.map_cons] at hrest ⊢
    split <;> exact ⟨hbs.1, hrest⟩

theorem Laid.mergePass {lo hi : ℕ} {bs : List Block} (hbs : Laid h lo hi bs) :
    Laid h lo hi (mergePass h bs) := by
  induction bs using FreeList.mergePass.induct generalizing lo with
  | case1 a b rest hfree ih =>
    rw [FreeList.mergePass, if_pos hfree]
    have hstart := hbs.2.1
    exact ⟨hbs.1, ih (hbs.2.2.weaken (by dsimp only; omega))⟩
  | case2 a b rest hfree ih =>
    rw [FreeList.mergePass, if_neg hfree]
    exact ⟨hbs.1, ih hbs.2⟩
  | case3 a => exact hbs
  | case4 => exact hbs

end Laid

section Used

variable {h}

@[simp] theorem used_nil : used h [] = [] := rfl

theorem used_cons (b : Block) (bs : List Block) :
    used h (b :: bs) = if b.free = true then used h bs else (b.addr + h, b.size) :: used h bs := by
  cases hb : b.free <;> simp [used, hb]

theorem used_append (as bs : List Block) : used h (as ++ bs) = used h as ++ used h bs := by
  simp [used]

theorem used_cut (n : ℕ) (b : Block) : used h (cut h n b) = [(b.addr + h, n)] := by
  unfold cut
  split <;> simp [used]

/-- A served request is one more allocation. -/
theorem used_firstFit {n p : ℕ} {bs bs' : List Block} (hfit : firstFit h n bs = some (p, bs')) :
    (used h bs').Perm ((p, n) :: used h bs) := by
  obtain ⟨as, b, cs, rfl, rfl, rfl, hserve, -⟩ := firstFit_cases hfit
  rw [used_append, used_append, used_cut, used_append, used_cons, if_pos hserve.1]
  exact List.perm_middle

/-- Joining free blocks does not concern the owners. -/
@[simp] theorem used_mergePass (bs : List Block) : used h (mergePass h bs) = used h bs := by
  induction bs using mergePass.induct with
  | case1 a b rest hfree ih =>
    rw [mergePass, if_pos hfree, used_cons, if_pos rfl, ih, used_cons, if_pos hfree.1, used_cons,
      if_pos hfree.2]
  | case2 a b rest hfree ih =>
    rw [mergePass, if_neg hfree, used_cons, ih, used_cons a]
  | case3 a => rfl
  | case4 => rfl

theorem mem_used {bs : List Block} {x : ℕ × ℕ} (hx : x ∈ used h bs) :
    ∃ b ∈ bs, b.free = false ∧ x = (b.addr + h, b.size) := by
  obtain ⟨b, hb, rfl⟩ := List.mem_map.mp hx
  have hb := List.mem_filter.mp hb
  exact ⟨b, hb.1, by simpa using hb.2, rfl⟩

theorem release_of_forall_ne {p : ℕ} {bs : List Block} (hp : ∀ b ∈ bs, b.addr + h ≠ p) :
    release h p bs = bs := by
  induction bs with
  | nil => rfl
  | cons b bs ih =>
    have hrest := ih fun c hc => hp c (by simp [hc])
    rw [release] at hrest ⊢
    rw [List.map_cons, hrest, if_neg (hp b (by simp))]

/-- Allocations do not overlap, however they are ordered. -/
theorem Laid.used_pairwise {lo hi : ℕ} {bs : List Block} (hbs : Laid h lo hi bs) :
    (used h bs).Pairwise fun x y => x.1 + x.2 ≤ y.1 ∨ y.1 + y.2 ≤ x.1 := by
  refine List.pairwise_map.mpr ((hbs.pairwise.filter _).imp fun {a b} hab => Or.inl ?_)
  dsimp only
  omega

/-- Releasing an allocation takes it off the list of allocations. -/
theorem used_release {lo hi p n : ℕ} (hh : 0 < h) {bs : List Block} (hbs : Laid h lo hi bs)
    (hp : (p, n) ∈ used h bs) : (used h (release h p bs)).Perm ((used h bs).erase (p, n)) := by
  induction bs generalizing lo with
  | nil => simp at hp
  | cons b bs ih =>
    have hlater : ∀ c ∈ bs, b.addr < c.addr := by
      intro c hc
      have := (hbs.2.mem hc).1
      omega
    rw [used_cons] at hp
    by_cases hb : b.addr + h = p
    · have hnot : release h p bs = bs :=
        release_of_forall_ne fun c hc => by have := hlater c hc; omega
      have hused : ∀ x ∈ used h bs, x.1 ≠ p := by
        intro x hx
        obtain ⟨c, hc, -, rfl⟩ := mem_used hx
        have := hlater c hc
        dsimp only
        omega
      rw [release] at hnot ⊢
      rw [List.map_cons, hnot, if_pos hb, used_cons, if_pos rfl, used_cons]
      split at hp
      · exact absurd rfl (hused _ hp)
      · rename_i hfree
        rcases List.mem_cons.mp hp with heq | hp
        · rw [if_neg hfree, heq, List.erase_cons_head]
        · exact absurd rfl (hused _ hp)
    · have hrest : (p, n) ∈ used h bs := by
        split at hp
        · exact hp
        · rcases List.mem_cons.mp hp with heq | hp
          · exact absurd (Prod.mk.inj heq).1.symm hb
          · exact hp
      have hperm := ih hbs.2 hrest
      rw [release] at hperm ⊢
      rw [List.map_cons, if_neg hb, used_cons, used_cons]
      split
      · exact hperm
      · have hne : (b.addr + h, b.size) ≠ (p, n) := fun heq => hb (Prod.mk.inj heq).1
        rw [List.erase_cons_tail (by simpa using hne)]
        exact hperm.cons _

end Used

section Neighbours

variable {h}

/-- No two neighbours are free. -/
def NoTwoFree (bs : List Block) : Prop :=
  bs.IsChain fun a b => ¬(a.free = true ∧ b.free = true)

/-- No three neighbours are free. -/
def NoThreeFree : List Block → Prop
  | a :: b :: c :: bs =>
    ¬(a.free = true ∧ b.free = true ∧ c.free = true) ∧ NoThreeFree (b :: c :: bs)
  | _ => True

/-- The list is empty or starts with a used block. -/
def StartsUsed (bs : List Block) : Prop := ∀ b ∈ bs.head?, b.free = false

theorem noTwoFree_cons {b : Block} {bs : List Block} :
    NoTwoFree (b :: bs) ↔ (b.free = true → StartsUsed bs) ∧ NoTwoFree bs := by
  unfold NoTwoFree StartsUsed
  rw [List.isChain_cons]
  simp only [not_and, Bool.not_eq_true]
  tauto

theorem noThreeFree_cons {b : Block} {bs : List Block} (hb : b.free = true → StartsUsed bs) :
    NoThreeFree (b :: bs) ↔ NoThreeFree bs := by
  match bs with
  | [] => rfl
  | [c] => rfl
  | c :: d :: bs =>
    have hnot : ¬(b.free = true ∧ c.free = true ∧ d.free = true) := by
      rintro ⟨hfree, hc, -⟩
      simp [hb hfree c rfl] at hc
    exact and_iff_right hnot

theorem startsUsed_mergePass (bs : List Block) :
    StartsUsed (mergePass h bs) ↔ StartsUsed bs := by
  induction bs using mergePass.induct with
  | case1 a b rest hfree => simp [mergePass, StartsUsed, hfree]
  | case2 a b rest hfree => simp [mergePass, StartsUsed, hfree]
  | case3 a => rfl
  | case4 => rfl

/-- One walk leaves no two free neighbours exactly when there were no three:
a joined block is not compared with the block after it. -/
theorem noTwoFree_mergePass (bs : List Block) :
    NoTwoFree (mergePass h bs) ↔ NoThreeFree bs := by
  induction bs using mergePass.induct with
  | case1 a b rest hfree ih =>
    rw [mergePass, if_pos hfree, noTwoFree_cons, ih, startsUsed_mergePass]
    cases rest with
    | nil => simp [NoThreeFree, StartsUsed]
    | cons c rest =>
      have hhead : ¬(a.free = true ∧ b.free = true ∧ c.free = true) ↔ StartsUsed (c :: rest) := by
        simp [StartsUsed, hfree]
      rw [NoThreeFree, hhead]
      refine ⟨fun h => ⟨h.1 rfl, ?_⟩, fun h => ⟨fun _ => h.1, ?_⟩⟩
      · exact (noThreeFree_cons fun _ => h.1 rfl).mpr h.2
      · exact (noThreeFree_cons fun _ => h.1).mp h.2
  | case2 a b rest hfree ih =>
    have hused : a.free = true → StartsUsed (b :: rest) := by
      intro ha c hc
      obtain rfl : b = c := Option.some.inj hc
      simpa [ha] using hfree
    rw [mergePass, if_neg hfree, noTwoFree_cons, ih, startsUsed_mergePass, noThreeFree_cons hused]
    exact and_iff_right hused
  | case3 a => simp [mergePass, NoTwoFree, NoThreeFree]
  | case4 => simp [mergePass, NoTwoFree, NoThreeFree]

theorem NoTwoFree.cut {n : ℕ} {b : Block} {bs : List Block} (hb : b.free = true)
    (hbs : NoTwoFree (b :: bs)) : NoTwoFree (cut h n b ++ bs) := by
  obtain ⟨hnext, hrest⟩ := noTwoFree_cons.mp hbs
  unfold FreeList.cut
  split
  · simp only [List.cons_append, List.nil_append, noTwoFree_cons]
    exact ⟨by simp, fun _ => hnext hb, hrest⟩
  · simp only [List.cons_append, List.nil_append, noTwoFree_cons]
    exact ⟨by simp, hrest⟩

/-- Serving a request makes no free neighbours. -/
theorem NoTwoFree.firstFit {n p : ℕ} {bs bs' : List Block} (hbs : NoTwoFree bs)
    (hfit : firstFit h n bs = some (p, bs')) : NoTwoFree bs' ∧ (StartsUsed bs → StartsUsed bs') := by
  induction bs generalizing bs' with
  | nil => simp [FreeList.firstFit] at hfit
  | cons b bs ih =>
    unfold FreeList.firstFit at hfit
    split at hfit
    · rename_i hserve
      obtain ⟨rfl, rfl⟩ := Prod.mk.inj (Option.some.inj hfit)
      refine ⟨hbs.cut hserve.1, fun hused => ?_⟩
      have hb := hused b rfl
      simp [hserve.1] at hb
    · obtain ⟨r, hr, heq⟩ := Option.map_eq_some_iff.mp hfit
      obtain ⟨rfl, rfl⟩ := Prod.mk.inj heq
      obtain ⟨hnext, hrest⟩ := noTwoFree_cons.mp hbs
      obtain ⟨hkept, hstart⟩ := ih hrest hr
      exact ⟨noTwoFree_cons.mpr ⟨fun hb => hstart (hnext hb), hkept⟩, fun hused => hused⟩

end Neighbours

section Pairs

variable {h}

/-- 1 if the list starts with a free block. -/
def headFree : List Block → ℕ
  | [] => 0
  | b :: _ => if b.free = true then 1 else 0

/-- The number of places where a free block follows a free block. -/
def freePairs : List Block → ℕ
  | [] => 0
  | b :: bs => (if b.free = true then headFree bs else 0) + freePairs bs

theorem headFree_cons (b : Block) (bs : List Block) :
    headFree (b :: bs) = if b.free = true then 1 else 0 := rfl

theorem freePairs_cons (b : Block) (bs : List Block) :
    freePairs (b :: bs) = (if b.free = true then headFree bs else 0) + freePairs bs := rfl

theorem headFree_le (bs : List Block) : headFree bs ≤ 1 := by
  unfold headFree
  split
  · exact Nat.zero_le _
  · split <;> omega

theorem headFree_eq_zero_iff {bs : List Block} : headFree bs = 0 ↔ StartsUsed bs := by
  cases bs with
  | nil => simp [headFree, StartsUsed]
  | cons b bs => simp [headFree, StartsUsed]

/-- Three free blocks in a row are two pairs. -/
theorem noThreeFree_of_freePairs {bs : List Block} (hbs : freePairs bs ≤ 1) : NoThreeFree bs := by
  match bs with
  | [] => trivial
  | [a] => trivial
  | a :: b :: c :: bs =>
    refine ⟨?_, noThreeFree_of_freePairs (Nat.le_trans (Nat.le_add_left _ _) hbs)⟩
    rintro ⟨ha, hb, hc⟩
    simp only [freePairs, headFree, ha, hb, hc, if_true] at hbs
    omega
  | [a, b] => trivial

theorem headFree_mergePass (bs : List Block) : headFree (mergePass h bs) = headFree bs := by
  have hle := headFree_le bs
  have hle' := headFree_le (mergePass h bs)
  have hiff : headFree (mergePass h bs) = 0 ↔ headFree bs = 0 := by
    rw [headFree_eq_zero_iff, headFree_eq_zero_iff, startsUsed_mergePass]
  omega

/-- One walk joins every other pair of a row of free blocks. -/
theorem freePairs_mergePass (bs : List Block) :
    2 * freePairs (mergePass h bs) ≤ freePairs bs := by
  induction bs using mergePass.induct with
  | case1 a b rest hfree ih =>
    have hle := headFree_le rest
    rw [mergePass, if_pos hfree]
    simp only [freePairs_cons, headFree_cons, headFree_mergePass, hfree.1, hfree.2, if_true]
    omega
  | case2 a b rest hfree ih =>
    have hapart : (if a.free = true then headFree (b :: rest) else 0) = 0 := by
      by_cases ha : a.free = true
      · simp_all [headFree]
      · rw [if_neg ha]
    rw [mergePass, if_neg hfree, freePairs, headFree_mergePass, freePairs, hapart]
    omega
  | case3 a => simp [mergePass, freePairs, headFree]
  | case4 => simp [mergePass, freePairs]

theorem headFree_release_ge (p : ℕ) (bs : List Block) : headFree bs ≤ headFree (release h p bs) := by
  cases bs with
  | nil => exact le_rfl
  | cons b bs =>
    simp only [release, List.map_cons, headFree]
    split <;> split <;> simp_all

/-- A released block has at most two neighbours; the first block of the list counts as the
neighbour of what comes before. -/
theorem freePairs_release_aux {lo hi p : ℕ} (hh : 0 < h) {bs : List Block}
    (hbs : Laid h lo hi bs) :
    freePairs (release h p bs) + headFree (release h p bs) ≤ freePairs bs + headFree bs + 2 := by
  induction bs generalizing lo with
  | nil => simp [release, freePairs]
  | cons b bs ih =>
    by_cases hb : b.addr + h = p
    · have hnot : release h p bs = bs := release_of_forall_ne fun c hc => by
        have hc := (hbs.2.mem hc).1
        omega
      have hle := headFree_le bs
      rw [release] at hnot ⊢
      rw [List.map_cons, hnot, if_pos hb]
      simp only [freePairs_cons, headFree_cons, if_true]
      split <;> omega
    · have hrest := ih hbs.2
      have hge := headFree_release_ge (h := h) p bs
      rw [release] at hrest hge ⊢
      rw [List.map_cons, if_neg hb]
      simp only [freePairs_cons, headFree_cons]
      split <;> omega

theorem freePairs_release {lo hi : ℕ} (hh : 0 < h) {bs : List Block} (hbs : Laid h lo hi bs)
    (p : ℕ) : freePairs (release h p bs) ≤ freePairs bs + 2 := by
  have haux := freePairs_release_aux (p := p) hh hbs
  have hge := headFree_release_ge (h := h) p bs
  omega

/-- Serving a request makes no pair and no free start. -/
theorem freePairs_firstFit {n p : ℕ} {bs bs' : List Block} (hfit : firstFit h n bs = some (p, bs')) :
    freePairs bs' ≤ freePairs bs ∧ headFree bs' ≤ headFree bs := by
  induction bs generalizing bs' with
  | nil => simp [firstFit] at hfit
  | cons b bs ih =>
    unfold firstFit at hfit
    split at hfit
    · rename_i hserve
      obtain ⟨rfl, rfl⟩ := Prod.mk.inj (Option.some.inj hfit)
      unfold cut
      split <;> simp [freePairs, headFree, hserve.1]
    · obtain ⟨r, hr, heq⟩ := Option.map_eq_some_iff.mp hfit
      obtain ⟨rfl, rfl⟩ := Prod.mk.inj heq
      obtain ⟨hpairs, hhead⟩ := ih hr
      refine ⟨?_, le_rfl⟩
      simp only [freePairs]
      split <;> omega

/-- Outside the pairs, free blocks alternate with used ones. -/
theorem length_le_of_freePairs (bs : List Block) :
    bs.length ≤ 2 * (used h bs).length + freePairs bs + headFree bs := by
  induction bs with
  | nil => simp
  | cons b bs ih =>
    have hle := headFree_le bs
    rw [used_cons, freePairs, headFree, List.length_cons]
    split
    · omega
    · rw [List.length_cons]
      omega

end Pairs

section Total

/-- The bytes the blocks account for, headers included. -/
def total (bs : List Block) : ℕ := (bs.map fun b => h + b.size).sum

/-- The block that serves a request is used up to its last byte, or what is
left of it becomes a block. -/
def FitsWhole (n : ℕ) (bs : List Block) : Prop :=
  ∀ b ∈ bs.find? fun b => b.free && n ≤ b.size, b.size = n ∨ n + h < b.size

variable {h}

@[simp] theorem total_nil : total h [] = 0 := rfl

@[simp] theorem total_cons (b : Block) (bs : List Block) :
    total h (b :: bs) = h + b.size + total h bs := by
  simp [total]

@[simp] theorem total_append (as bs : List Block) :
    total h (as ++ bs) = total h as + total h bs := by
  simp [total]

@[simp] theorem total_release (p : ℕ) (bs : List Block) :
    total h (release h p bs) = total h bs := by
  unfold total release
  rw [List.map_map]
  congr 1
  apply List.map_congr_left
  intro b _
  simp only [Function.comp_apply]
  split <;> rfl

@[simp] theorem total_mergePass (bs : List Block) : total h (mergePass h bs) = total h bs := by
  induction bs using mergePass.induct with
  | case1 a b rest hfree ih =>
    rw [mergePass, if_pos hfree, total_cons, total_cons, total_cons, ih]
    dsimp only
    omega
  | case2 a b rest hfree ih => rw [mergePass, if_neg hfree, total_cons, ih, total_cons a]
  | case3 a => rfl
  | case4 => rfl

/-- A cut loses what is too small to be a block of its own. -/
theorem total_cut {n : ℕ} {b : Block} (hn : n ≤ b.size) :
    total h (cut h n b) ≤ h + b.size ∧
      (total h (cut h n b) = h + b.size ↔ b.size = n ∨ n + h < b.size) := by
  unfold cut
  split <;> simp [total] <;> omega

/-- A served request loses bytes exactly when its block does not fit whole. -/
theorem total_firstFit {n p : ℕ} {bs bs' : List Block} (hfit : firstFit h n bs = some (p, bs')) :
    total h bs' ≤ total h bs ∧ (total h bs' = total h bs ↔ FitsWhole h n bs) := by
  obtain ⟨as, b, cs, rfl, rfl, -, hserve, hfind⟩ := firstFit_cases hfit
  obtain ⟨hle, heq⟩ := total_cut (h := h) hserve.2
  rw [FitsWhole, hfind, total_append, total_append, total_append, total_cons]
  simp only [Option.mem_def, Option.some.injEq, forall_eq', ← heq]
  omega

/-- A request that nothing can serve fits in the empty sense. -/
theorem fitsWhole_of_none {n : ℕ} {bs : List Block} (hfit : firstFit h n bs = none) :
    FitsWhole h n bs := by
  rw [FitsWhole, firstFit_eq_none_iff.mp hfit]
  simp

end Total

section Serves

/-- Some free block is large enough for a request of `n` bytes. -/
def Serves (n : ℕ) (bs : List Block) : Prop := ∃ b ∈ bs, b.free = true ∧ n ≤ b.size

variable {h}

theorem serves_cons {n : ℕ} {b : Block} {bs : List Block} :
    Serves n (b :: bs) ↔ (b.free = true ∧ n ≤ b.size) ∨ Serves n bs := by
  simp [Serves]

/-- Exactly the requests that a free block is large enough for are served. -/
theorem isSome_firstFit {n : ℕ} {bs : List Block} :
    (firstFit h n bs).isSome = true ↔ Serves n bs := by
  induction bs with
  | nil => simp [firstFit, Serves]
  | cons b bs ih =>
    rw [firstFit, serves_cons, ← ih]
    by_cases hserve : b.free = true ∧ n ≤ b.size <;> simp [hserve]

/-- A release marks blocks free and resizes none. -/
theorem Serves.release {n : ℕ} {bs : List Block} (hbs : Serves n bs) (p : ℕ) :
    Serves n (release h p bs) := by
  obtain ⟨b, hb, hfree, hn⟩ := hbs
  refine ⟨_, List.mem_map_of_mem hb, ?_, ?_⟩
  · split
    · rfl
    · exact hfree
  · split <;> exact hn

/-- A released allocation serves every request that is not larger. -/
theorem serves_release {n k p : ℕ} {bs : List Block} (hp : (p, n) ∈ used h bs) (hk : k ≤ n) :
    Serves k (release h p bs) := by
  obtain ⟨b, hb, -, heq⟩ := mem_used hp
  obtain ⟨rfl, rfl⟩ := Prod.mk.inj heq
  refine ⟨{ b with free := true }, List.mem_map.mpr ⟨b, hb, if_pos rfl⟩, rfl, hk⟩

/-- A block that the walk absorbs lies in a free block that is larger. -/
theorem Serves.mergePass {n : ℕ} {bs : List Block} (hbs : Serves n bs) :
    Serves n (mergePass h bs) := by
  induction bs using FreeList.mergePass.induct with
  | case1 a b rest hfree ih =>
    rw [FreeList.mergePass, if_pos hfree]
    rcases serves_cons.mp hbs with ⟨-, hn⟩ | hbs
    · exact serves_cons.mpr (Or.inl ⟨rfl, by dsimp only; omega⟩)
    rcases serves_cons.mp hbs with ⟨-, hn⟩ | hbs
    · exact serves_cons.mpr (Or.inl ⟨rfl, by dsimp only; omega⟩)
    · exact serves_cons.mpr (Or.inr (ih hbs))
  | case2 a b rest hfree ih =>
    rw [FreeList.mergePass, if_neg hfree]
    exact serves_cons.mpr ((serves_cons.mp hbs).imp_right ih)
  | case3 a => exact hbs
  | case4 => exact hbs

end Serves

section Split

/-- The header that serving a request creates. -/
def splitOff (n : ℕ) (bs : List Block) : Option ℕ :=
  (bs.find? fun b => b.free && n ≤ b.size).bind fun b =>
    if n + h < b.size then some (b.addr + h + n) else none

variable {h}

theorem splitOff_cons {n : ℕ} {b : Block} {bs : List Block} :
    splitOff h n (b :: bs) =
      if b.free = true ∧ n ≤ b.size then
        if n + h < b.size then some (b.addr + h + n) else none
      else splitOff h n bs := by
  unfold splitOff
  split
  · rename_i hserve
    rw [List.find?_cons_of_pos (by simpa using hserve), Option.bind_some]
  · rename_i hserve
    rw [List.find?_cons_of_neg (by simpa using hserve)]

theorem mem_cut {n : ℕ} {b c : Block} (hc : c ∈ cut h n b) :
    c.addr = b.addr ∨ n + h < b.size ∧ c.addr = b.addr + h + n := by
  unfold cut at hc
  split at hc
  · rename_i hbig
    rcases List.mem_pair.mp hc with rfl | rfl
    · exact Or.inl rfl
    · exact Or.inr ⟨hbig, rfl⟩
  · obtain rfl := List.mem_singleton.mp hc
    exact Or.inl rfl

/-- A served request is handed the payload of a block that was there. Its
blocks start where blocks started before, or at the header that was split off. -/
theorem addr_firstFit {n p : ℕ} {bs bs' : List Block} (hfit : firstFit h n bs = some (p, bs')) :
    (∃ b ∈ bs, p = b.addr + h ∧ ∀ a ∈ splitOff h n bs, a = b.addr + h + n) ∧
      ∀ c ∈ bs', (∃ b ∈ bs, c.addr = b.addr) ∨ c.addr ∈ splitOff h n bs := by
  obtain ⟨as, b, cs, rfl, rfl, rfl, -, hfind⟩ := firstFit_cases hfit
  rw [splitOff, hfind, Option.bind_some]
  refine ⟨⟨b, by simp, rfl, fun a ha => ?_⟩, fun c hc => ?_⟩
  · split at ha
    · exact (Option.some.inj ha).symm
    · simp at ha
  · rw [List.mem_append, List.mem_append] at hc
    rcases hc with hc | hc | hc
    · exact Or.inl ⟨c, by simp [hc], rfl⟩
    · rcases mem_cut hc with heq | ⟨hbig, heq⟩
      · exact Or.inl ⟨b, by simp, heq⟩
      · rw [if_pos hbig, heq]
        exact Or.inr rfl
    · exact Or.inl ⟨c, by simp [hc], rfl⟩

theorem addr_release {p : ℕ} {bs : List Block} {c : Block} (hc : c ∈ release h p bs) :
    ∃ b ∈ bs, c.addr = b.addr := by
  obtain ⟨b, hb, rfl⟩ := List.mem_map.mp hc
  refine ⟨b, hb, ?_⟩
  split <;> rfl

theorem addr_mergePass {bs : List Block} {c : Block} (hc : c ∈ mergePass h bs) :
    ∃ b ∈ bs, c.addr = b.addr := by
  induction bs using mergePass.induct with
  | case1 a b rest hfree ih =>
    rw [mergePass, if_pos hfree] at hc
    rcases List.mem_cons.mp hc with rfl | hc
    · exact ⟨a, by simp, rfl⟩
    · obtain ⟨d, hd, heq⟩ := ih hc
      exact ⟨d, by simp [hd], heq⟩
  | case2 a b rest hfree ih =>
    rw [mergePass, if_neg hfree] at hc
    rcases List.mem_cons.mp hc with rfl | hc
    · exact ⟨c, by simp, rfl⟩
    · obtain ⟨d, hd, heq⟩ := ih hc
      exact ⟨d, List.mem_cons_of_mem _ hd, heq⟩
  | case3 a => exact ⟨c, hc, rfl⟩
  | case4 => simp [mergePass] at hc

end Split

end FreeList

end EtyOS.Library
