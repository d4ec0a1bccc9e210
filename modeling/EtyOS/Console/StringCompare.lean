import EtyOS.Library.ByteMemory
import EtyOS.Library.Recording
import EtyOS.Console.CString

/-!
# The reads of `strcmp` and `strncmp`

The two loops over pointers, with a record of the bytes that they read. The
loops return what the comparisons of lists say, and stop at the terminator of
the shorter string. So the two functions agree on every common length, and
`strcmp` decides the lexicographic order of unsigned bytes.
-/

namespace EtyOS.StringCompare

open Library

inductive Operand where
  | str1
  | str2
deriving DecidableEq

/-- Comparisons, with a record of the operand and the address of every byte read. -/
abbrev Comparing := Recording (Operand × ℕ) Option

def read (m : Memory) (operand : Operand) (p : ℕ) : Comparing UInt8 := do
  note (operand, p)
  return m p

/-- `*str1 && (*str1 == *str2)`, on signed `char`s. -/
def goesOn (m : Memory) (str1 str2 : ℕ) : Comparing Bool := do
  if (← read m .str1 str1).toInt8 ≠ 0 then
    return (← read m .str1 str1).toInt8 = (← read m .str2 str2).toInt8
  else return false

/-- The difference of two bytes read as `unsigned char`. -/
def difference (m : Memory) (str1 str2 : ℕ) : Comparing ℤ := do
  return (← read m .str1 str1).toNat - (← read m .str2 str2).toNat

/-- At most `budget` tests of the loop condition: without a NUL the loop may not end. -/
def strcmp (m : Memory) (str1 str2 : ℕ) : ℕ → Comparing ℤ
  | 0 => failure
  | budget + 1 => do
    if ← goesOn m str1 str2 then strcmp m (str1 + 1) (str2 + 1) budget
    else difference m str1 str2

/-- `str1[i] != str2[i] || str1[i] == '\0'`, on signed `char`s. -/
def stops (m : Memory) (str1 str2 i : ℕ) : Comparing Bool := do
  if (← read m .str1 (str1 + i)).toInt8 ≠ (← read m .str2 (str2 + i)).toInt8 then return true
  else return (← read m .str1 (str1 + i)).toInt8 = 0

def strncmpFrom (m : Memory) (str1 str2 num i : ℕ) : Comparing ℤ :=
  if i < num then do
    if ← stops m str1 str2 i then difference m (str1 + i) (str2 + i)
    else strncmpFrom m str1 str2 num (i + 1)
  else return 0
termination_by num - i

def strncmp (m : Memory) (str1 str2 num : ℕ) : Comparing ℤ := strncmpFrom m str1 str2 num 0

/-- The bytes of a string lie at `p`, and a NUL behind them. -/
def Holds (m : Memory) (p : ℕ) : List UInt8 → Prop
  | [] => m p = 0
  | c :: s => m p = c ∧ Holds m (p + 1) s

/-! ### The loops -/

section Loops

variable {P : Operand × ℕ → Prop} {m : Memory}

theorem yields_read {operand : Operand} {p : ℕ} (h : P (operand, p)) :
    Yields P (read m operand p) (m p) := (Yields.note h).bind (Yields.pure _)

theorem toInt8_inj {c d : UInt8} : c.toInt8 = d.toInt8 ↔ c = d :=
  ⟨congrArg Int8.toUInt8, congrArg UInt8.toInt8⟩

theorem yields_goesOn {p q : ℕ} (hp : P (.str1, p)) (hq : P (.str2, q)) :
    Yields P (goesOn m p q) (decide (m p ≠ 0 ∧ m p = m q)) := by
  refine (yields_read hp).bind (Yields.ite (fun hc => ?_) fun hc => ?_)
  · have hne : m p ≠ 0 := fun h => hc (congrArg UInt8.toInt8 h)
    refine (yields_read hp).bind ((yields_read hq).bind ?_)
    simp only [toInt8_inj, hne, ne_eq, not_false_eq_true, true_and]
    exact Yields.pure _
  · have heq : m p = 0 := toInt8_inj.mp (not_not.mp hc)
    simp only [heq, ne_eq, not_true_eq_false, false_and, decide_false]
    exact Yields.pure false

theorem yields_stops {p q i : ℕ} (hp : P (.str1, p + i)) (hq : P (.str2, q + i)) :
    Yields P (stops m p q i) (decide (m (p + i) = m (q + i) → m (p + i) = 0)) := by
  refine (yields_read hp).bind ((yields_read hq).bind (Yields.ite (fun hc => ?_) fun hc => ?_))
  · have hne : m (p + i) ≠ m (q + i) := fun h => hc (congrArg UInt8.toInt8 h)
    simp only [hne, IsEmpty.forall_iff, decide_true]
    exact Yields.pure true
  · have heq : m (p + i) = m (q + i) := toInt8_inj.mp (not_not.mp hc)
    have hnul : (m (q + i)).toInt8 = 0 ↔ m (q + i) = 0 := toInt8_inj
    refine (yields_read hp).bind ?_
    simp only [heq, forall_const, hnul]
    exact Yields.pure _

theorem yields_difference {p q : ℕ} (hp : P (.str1, p)) (hq : P (.str2, q)) :
    Yields P (difference m p q) ((m p).toNat - (m q).toNat) :=
  (yields_read hp).bind ((yields_read hq).bind (Yields.pure _))

theorem Holds.head {p : ℕ} {s : List UInt8} (h : Holds m p s) : m p = s.headD 0 := by
  cases s with
  | nil => exact h
  | cons c s => exact h.1

/-- Behind a byte that is no NUL the string goes on. -/
theorem Holds.cons {p : ℕ} {s : List UInt8} (h : Holds m p s) (hne : m p ≠ 0) :
    ∃ s', s = m p :: s' ∧ Holds m (p + 1) s' := by
  cases s with
  | nil => exact absurd h hne
  | cons c s => exact ⟨s, by rw [h.1], h.2⟩

/-- Both operands may be read up to `last` bytes behind the pointers. -/
def Within (p q last : ℕ) : Operand × ℕ → Prop
  | (.str1, a) => p ≤ a ∧ a ≤ p + last
  | (.str2, a) => q ≤ a ∧ a ≤ q + last

theorem Within.step {p q last : ℕ} : ∀ r, Within (p + 1) (q + 1) last r → Within p q (last + 1) r
  | (.str1, _), h => ⟨Nat.le_of_succ_le h.1, by have := h.2; omega⟩
  | (.str2, _), h => ⟨Nat.le_of_succ_le h.1, by have := h.2; omega⟩

/-- The loop of `strcmp` ends at the first difference or at the terminator of
the shorter string. -/
theorem yields_strcmp {as bs : List UInt8} (has : 0 ∉ as) {p q : ℕ} (ha : Holds m p as)
    (hb : Holds m q bs) {budget : ℕ} (hbudget : min as.length bs.length < budget) :
    Yields (Within p q (min as.length bs.length)) (strcmp m p q budget) (EtyOS.strcmp as bs) := by
  induction budget generalizing as bs p q with
  | zero => omega
  | succ budget ih =>
    have hp : Within p q (min as.length bs.length) (.str1, p) := ⟨le_rfl, Nat.le_add_right _ _⟩
    have hq : Within p q (min as.length bs.length) (.str2, q) := ⟨le_rfl, Nat.le_add_right _ _⟩
    refine (yields_goesOn hp hq).bind (Yields.ite (fun hgo => ?_) fun hstop => ?_)
    · obtain ⟨hne, heq⟩ := of_decide_eq_true hgo
      obtain ⟨as, rfl, ha'⟩ := ha.cons hne
      obtain ⟨bs, rfl, hb'⟩ := hb.cons (heq ▸ hne)
      have hmin : min (m p :: as).length (m q :: bs).length = min as.length bs.length + 1 :=
        Nat.succ_min_succ _ _
      rw [EtyOS.strcmp, if_pos heq, hmin]
      rw [hmin] at hbudget
      exact (ih (fun h => has (List.mem_cons_of_mem _ h)) ha' hb'
        (Nat.lt_of_succ_lt_succ hbudget)).mono Within.step
    · have hstop' : as.headD 0 = bs.headD 0 → as.headD 0 = 0 := by
        rw [← ha.head, ← hb.head]
        intro heq
        by_contra hne
        exact hstop (decide_eq_true ⟨hne, heq⟩)
      rw [strcmp_of_head has hstop', ← ha.head, ← hb.head]
      exact yields_difference hp hq

/-- The loop of `strncmp` ends there too, or after `n` bytes. -/
theorem yields_strncmpFrom {as bs : List UInt8} (has : 0 ∉ as) {p q i n : ℕ}
    (ha : Holds m (p + i) as) (hb : Holds m (q + i) bs) :
    Yields (Within (p + i) (q + i) (min as.length bs.length)) (strncmpFrom m p q (i + n) i)
      (EtyOS.strcmp (as.take n) (bs.take n)) := by
  induction n generalizing as bs i with
  | zero =>
    rw [strncmpFrom, Nat.add_zero, if_neg (Nat.lt_irrefl i)]
    exact Yields.pure 0
  | succ n ih =>
    have hp : Within (p + i) (q + i) (min as.length bs.length) (.str1, p + i) :=
      ⟨le_rfl, Nat.le_add_right _ _⟩
    have hq : Within (p + i) (q + i) (min as.length bs.length) (.str2, q + i) :=
      ⟨le_rfl, Nat.le_add_right _ _⟩
    rw [strncmpFrom, if_pos (Nat.lt_add_of_pos_right n.succ_pos)]
    refine (yields_stops hp hq).bind (Yields.ite (fun hstop => ?_) fun hgo => ?_)
    · have hstop' := of_decide_eq_true hstop
      have hhead (s : List UInt8) : (s.take (n + 1)).headD 0 = s.headD 0 := by cases s <;> rfl
      rw [strcmp_of_head (fun h => has (List.mem_of_mem_take h)), hhead, hhead, ← ha.head,
        ← hb.head]
      · exact yields_difference hp hq
      · rw [hhead, hhead, ← ha.head, ← hb.head]
        exact hstop'
    · have hgo' : m (p + i) = m (q + i) ∧ m (p + i) ≠ 0 :=
        Classical.not_imp.mp fun h => hgo (decide_eq_true h)
      obtain ⟨as, rfl, ha'⟩ := ha.cons hgo'.2
      obtain ⟨bs, rfl, hb'⟩ := hb.cons (hgo'.1 ▸ hgo'.2)
      have hmin : min (m (p + i) :: as).length (m (q + i) :: bs).length =
          min as.length bs.length + 1 := Nat.succ_min_succ _ _
      have hnext : i + (n + 1) = i + 1 + n := by omega
      rw [List.take_succ_cons, List.take_succ_cons, EtyOS.strcmp, if_pos hgo'.1, hmin, hnext]
      exact (ih (fun h => has (List.mem_cons_of_mem _ h)) ha' hb').mono Within.step

/-! ### The two functions -/

/-- With tests enough the comparison returns `v`, and reads no byte of an operand
more than `last` bytes behind its pointer. -/
def Returns (x : ℕ → Comparing ℤ) (p q last : ℕ) (v : ℤ) : Prop :=
  ∀ budget, last < budget → Yields (Within p q last) (x budget) v

/-- On strings in memory the functions return what they do on lists. -/
theorem returns_strcmp {p q : ℕ} {as bs : List UInt8} (h : 0 ∉ as) (ha : Holds m p as)
    (hb : Holds m q bs) :
    Returns (strcmp m p q) p q (min as.length bs.length) (EtyOS.strcmp as bs) :=
  fun _ hbudget => yields_strcmp h ha hb hbudget

theorem returns_strncmp {p q : ℕ} {a b : CString} (ha : Holds m p a.bytes)
    (hb : Holds m q b.bytes) (n : ℕ) :
    Returns (fun _ => strncmp m p q n) p q (min a.bytes.length b.bytes.length)
      (EtyOS.strncmp a.bytes b.bytes n) := by
  intro _ _
  have hloop := yields_strncmpFrom a.noNul (i := 0) (n := n) ha hb
  rw [Nat.zero_add, ← strncmp_eq_take] at hloop
  exact hloop

/-- For every two strings and every `n`: `strncmp` returns what `strcmp` returns for
their first `n` bytes, `strcmp` says which one is first, and the terminator of the
shorter one is the last byte that either reads. -/
theorem comparisons_agree {p q : ℕ} {a b : CString} (ha : Holds m p a.bytes)
    (hb : Holds m q b.bytes) (n : ℕ) :
    (∃ v, Returns (fun _ => strncmp m p q n) p q (min a.bytes.length b.bytes.length) v ∧
      ∀ m' p' q', Holds m' p' (a.bytes.take n) → Holds m' q' (b.bytes.take n) →
        Returns (strcmp m' p' q') p' q'
          (min (a.bytes.take n).length (b.bytes.take n).length) v) ∧
    ∃ v, Returns (strcmp m p q) p q (min a.bytes.length b.bytes.length) v ∧
      (v < 0 ↔ a.bytes < b.bytes) ∧ (v = 0 ↔ a = b) ∧ (0 < v ↔ b.bytes < a.bytes) := by
  refine ⟨⟨EtyOS.strncmp a.bytes b.bytes n, returns_strncmp ha hb n, ?_⟩,
    EtyOS.strcmp a.bytes b.bytes, returns_strcmp a.noNul ha hb, ?_, ?_, ?_⟩
  · intro m' p' q' ha' hb'
    rw [strncmp_eq_take]
    exact returns_strcmp (fun h => a.noNul (List.mem_of_mem_take h)) ha' hb'
  · exact strcmp_neg_iff _ b.noNul
  · rw [strcmp_eq_zero_iff _ _ a.noNul b.noNul, CString.ext_iff]
  · rw [← strcmp_neg_iff _ a.noNul, strcmp_antisymm a.bytes, neg_lt_zero]

/-- The texts "disk" and "disks", one behind the other. -/
def disks : Memory := Memory.write (fun _ => 0) 0 (chars "disk\x00disks")

theorem comparisons_agree_disks :
    ∃ v, Returns (strcmp disks 0 5) 0 5 4 v ∧ (v < 0 ↔ chars "disk" < chars "disks") ∧
      (v = 0 ↔ (⟨chars "disk", by decide⟩ : CString) = ⟨chars "disks", by decide⟩) ∧
      (0 < v ↔ chars "disks" < chars "disk") :=
  (comparisons_agree (m := disks) (p := 0) (q := 5) (a := ⟨chars "disk", by decide⟩)
    (b := ⟨chars "disks", by decide⟩) ⟨rfl, rfl, rfl, rfl, rfl⟩
    ⟨rfl, rfl, rfl, rfl, rfl, rfl⟩ 0).2

end Loops

end EtyOS.StringCompare
