import EtyOS.Console.BlockMoves

/-!
# `strcpy` at 64-bit pointers

The loop reads a string and writes its copy at the same time. It returns just when the
copy starts at the string itself or behind its terminator: a copy that starts inside the
string overwrites the terminator before it is read, and from then on the two pointers
chase each other through all of memory.
-/

namespace EtyOS.AddressSpace

/-- `while (*src) *dest++ = *src++;` and `*dest = '\0';`, with at most `budget` tests of the
loop condition. -/
def strcpyLoop (m : AddressSpace) (dest src : UInt64) : ℕ → Option AddressSpace
  | 0 => none
  | budget + 1 =>
    if m src ≠ 0 then strcpyLoop (Function.update m dest (m src)) (dest + 1) (src + 1) budget
    else some (Function.update m dest 0)

/-- The pointer returned, and the memory. -/
def strcpy (m : AddressSpace) (dest src : UInt64) (budget : ℕ) : Option (UInt64 × AddressSpace) :=
  (strcpyLoop m dest src budget).map fun m' => (dest, m')

/-- The largest `int`. -/
def intMax : ℕ := 2147483647

/-- `while (str[length] != '\0') length++;`; the `int` overflows (`none`) at the terminator
of a longer string, or without one. -/
def strlenFrom (m : AddressSpace) (str : UInt64) (length : ℕ) : Option ℕ :=
  if m (str + UInt64.ofNat length) ≠ 0 then
    if length < intMax then strlenFrom m str (length + 1) else none
  else some length
termination_by intMax - length

def strlen (m : AddressSpace) (str : UInt64) : Option ℕ := strlenFrom m str 0

/-- The first NUL from `src` on is `length` bytes behind it. -/
structure Terminated (m : AddressSpace) (src length : UInt64) : Prop where
  nonzero : ∀ i < length, m (src + i) ≠ 0
  nul : m (src + length) = 0

/-- `m'` has the string of `m` at `src` at `dest`, with its terminator, and is `m` elsewhere. -/
structure Copied (m m' : AddressSpace) (dest src length : UInt64) : Prop where
  inside : ∀ i ≤ length, m' (dest + i) = m (src + i)
  outside : ∀ p, (∀ i ≤ length, p ≠ dest + i) → m' p = m p

/-! ### Offsets -/

section Offsets

variable {i n : UInt64}

theorem toNat_succ_of_lt (h : i < n) : (i + 1).toNat = i.toNat + 1 := by
  have hlt := UInt64.lt_iff_toNat_lt.mp h
  have hbound := n.toNat_lt
  rw [UInt64.toNat_add, UInt64.toNat_one]
  omega

theorem succ_le_of_lt (h : i < n) : i + 1 ≤ n := by
  rw [UInt64.le_iff_toNat_le, toNat_succ_of_lt h]
  exact UInt64.lt_iff_toNat_lt.mp h

theorem succ_ne_zero_of_lt (h : i < n) : i + 1 ≠ 0 := by
  intro hzero
  have hnat := toNat_succ_of_lt h
  rw [hzero] at hnat
  exact Nat.succ_ne_zero _ hnat.symm

/-- An offset is zero, or one more than another. -/
theorem zero_or_succ (i : UInt64) : i = 0 ∨ ∃ k, i = k + 1 ∧ k < i := by
  by_cases hzero : i = 0
  · exact Or.inl hzero
  · refine Or.inr ⟨i - 1, (UInt64.sub_add_cancel i 1).symm, ?_⟩
    have hpos : 0 < i := by
      rw [UInt64.lt_iff_toNat_lt]
      exact Nat.pos_of_ne_zero fun h => hzero (UInt64.toNat_inj.mp h)
    exact UInt64.lt_iff_toNat_lt.mpr (length_sub_one_lt hpos)

end Offsets

/-! ### The loop -/

section Loop

variable {m m' : AddressSpace} {dest src length : UInt64}

/-- Where no byte is zero the loop does not end. -/
theorem strcpyLoop_endless (h : ∀ p, m p ≠ 0) (dest src : UInt64) (budget : ℕ) :
    strcpyLoop m dest src budget = none := by
  induction budget generalizing m dest src with
  | zero => rfl
  | succ budget ih =>
    rw [strcpyLoop, if_pos (h src)]
    refine ih (fun p => ?_) _ _
    by_cases hp : p = dest
    · rw [hp, Function.update_self]
      exact h src
    · rw [Function.update_of_ne hp]
      exact h p

/-- The bytes between the two pointers stay nonzero: one of them is copied to the front. -/
theorem strcpyLoop_chases (hne : dest ≠ src) (h : ∀ i < dest - src, m (src + i) ≠ 0)
    (budget : ℕ) : strcpyLoop m dest src budget = none := by
  induction budget generalizing m dest src with
  | zero => rfl
  | succ budget ih =>
    have hgap : 0 < dest - src := UInt64.pos_iff_ne_zero.mpr (by grind)
    have hfirst : m src ≠ 0 := by
      have hzero := h 0 hgap
      rwa [UInt64.add_zero] at hzero
    have hsame : dest + 1 - (src + 1) = dest - src := by grind
    rw [strcpyLoop, if_pos hfirst]
    refine ih (by grind) fun i hi => ?_
    rw [hsame] at hi
    have hback : src + 1 + i = src + (i + 1) := by grind
    rw [hback]
    by_cases hfront : i + 1 = dest - src
    · have hdest : src + (dest - src) = dest := by grind
      rw [hfront, hdest, Function.update_self]
      exact hfirst
    · have hnext : i + 1 < dest - src := UInt64.lt_of_le_of_ne (succ_le_of_lt hi) hfront
      rw [Function.update_of_ne (by grind)]
      exact h _ hnext

/-- One step towards the terminator, if what is written there is not read any more. -/
theorem Terminated.step (h : m.Terminated src (length + 1)) (hlt : length < length + 1)
    (hfar : dest = src ∨ length + 1 < dest - src) (c : UInt8) :
    Terminated (Function.update m dest c) (src + 1) length ∧
      ∀ i ≤ length, Function.update m dest c (src + 1 + i) = m (src + (i + 1)) := by
  have hread : ∀ i ≤ length, Function.update m dest c (src + 1 + i) = m (src + (i + 1)) := by
    intro i hi
    have hback : src + 1 + i = src + (i + 1) := by grind
    have hsucc : i + 1 ≤ length + 1 := succ_le_of_lt (UInt64.lt_of_le_of_lt hi hlt)
    have hnonzero : i + 1 ≠ 0 := succ_ne_zero_of_lt (UInt64.lt_of_le_of_lt hi hlt)
    rw [hback, Function.update_of_ne]
    intro heq
    rcases hfar with rfl | hfar
    · exact hnonzero (by grind)
    · have hgap : dest - src = i + 1 := by grind
      rw [hgap] at hfar
      exact absurd hsucc (UInt64.not_le.mpr hfar)
  refine ⟨⟨fun i hi => ?_, ?_⟩, hread⟩
  · rw [hread i (UInt64.le_of_lt hi)]
    refine h.nonzero _ ?_
    have hsucc := toNat_succ_of_lt hi
    have hlength := toNat_succ_of_lt hlt
    rw [UInt64.lt_iff_toNat_lt] at hi ⊢
    omega
  · rw [hread length (UInt64.le_refl length)]
    exact h.nul

/-- The first byte of a copy, and the rest of it. -/
theorem Copied.cons
    (h : Copied (Function.update m dest (m src)) m' (dest + 1) (src + 1) length)
    (hlt : length < length + 1)
    (hread : ∀ i ≤ length, Function.update m dest (m src) (src + 1 + i) = m (src + (i + 1))) :
    m.Copied m' dest src (length + 1) where
  inside i hi := by
    rcases zero_or_succ i with rfl | ⟨k, rfl, hk⟩
    · have hkept := h.outside dest fun j hj heq =>
        succ_ne_zero_of_lt (UInt64.lt_of_le_of_lt hj hlt) (by grind)
      rw [UInt64.add_zero, UInt64.add_zero, hkept, Function.update_self]
    · have hle : k ≤ length := by
        have hk' := toNat_succ_of_lt hk
        have hlength := toNat_succ_of_lt hlt
        rw [UInt64.le_iff_toNat_le] at hi ⊢
        omega
      have hnext : dest + (k + 1) = dest + 1 + k := by grind
      rw [hnext, h.inside k hle, hread k hle]
  outside p hp := by
    have hne : p ≠ dest := by
      have hzero := hp 0 UInt64.zero_le
      rwa [UInt64.add_zero] at hzero
    rw [h.outside p fun j hj => ?_, Function.update_of_ne hne]
    have hnext : dest + 1 + j = dest + (j + 1) := by grind
    rw [hnext]
    exact hp _ (succ_le_of_lt (UInt64.lt_of_le_of_lt hj hlt))

/-- With more tests the loop returns the same. -/
theorem strcpyLoop_mono {budget budget' : ℕ} (h : strcpyLoop m dest src budget = some m')
    (hle : budget ≤ budget') : strcpyLoop m dest src budget' = some m' := by
  induction budget generalizing m dest src budget' with
  | zero => cases h
  | succ budget ih =>
    obtain ⟨budget', rfl⟩ : ∃ b, budget' = b + 1 := ⟨budget' - 1, by omega⟩
    rw [strcpyLoop] at h ⊢
    split at h
    · rw [if_pos ‹_›]
      exact ih h (by omega)
    · rw [if_neg ‹_›]
      exact h

/-- The copy of a string that is read before it is overwritten. -/
theorem strcpyLoop_returns (h : m.Terminated src length)
    (hfar : dest = src ∨ length < dest - src) {budget : ℕ} (hbudget : length.toNat < budget) :
    ∃ m', strcpyLoop m dest src budget = some m' ∧ m.Copied m' dest src length := by
  induction budget generalizing m dest src length with
  | zero => omega
  | succ budget ih =>
    rcases zero_or_succ length with rfl | ⟨length, rfl, hlt⟩
    · have hnul : m src = 0 := by
        have hzero := h.nul
        rwa [UInt64.add_zero] at hzero
      refine ⟨Function.update m dest 0, if_neg (not_not.mpr hnul), ⟨fun i hi => ?_, fun p hp => ?_⟩⟩
      · rw [UInt64.le_zero_iff.mp hi, UInt64.add_zero, UInt64.add_zero, Function.update_self, hnul]
      · have hne := hp 0 (UInt64.le_refl 0)
        rw [UInt64.add_zero] at hne
        exact Function.update_of_ne hne _ _
    · have hfirst : m src ≠ 0 := by
        have hzero := h.nonzero 0 (UInt64.lt_of_le_of_lt (UInt64.zero_le) hlt)
        rwa [UInt64.add_zero] at hzero
      obtain ⟨hterminated, hread⟩ := h.step hlt hfar (m src)
      have hlength := toNat_succ_of_lt hlt
      have hfar' : dest + 1 = src + 1 ∨ length < dest + 1 - (src + 1) := by
        rcases hfar with rfl | hfar
        · exact Or.inl rfl
        · have hsame : dest + 1 - (src + 1) = dest - src := by grind
          rw [hsame]
          exact Or.inr (UInt64.lt_trans hlt hfar)
      obtain ⟨m', hrun, hcopied⟩ := ih hterminated hfar' (by omega)
      exact ⟨m', (if_pos hfirst).trans hrun, hcopied.cons hlt hread⟩

/-- Either some byte from `src` on is the first NUL, or none is zero. -/
theorem exists_terminated_or (m : AddressSpace) (src : UInt64) :
    (∃ length, m.Terminated src length) ∨ ∀ p, m p ≠ 0 := by
  by_cases hnul : ∃ n, m (src + UInt64.ofNat n) = 0
  · left
    classical
    have hlt : Nat.find hnul < UInt64.size := by
      refine Nat.lt_of_le_of_lt (Nat.find_min' hnul (m := (Nat.find hnul) % UInt64.size) ?_)
        (Nat.mod_lt _ (by decide))
      rw [UInt64.ofNat_mod_size]
      exact Nat.find_spec hnul
    refine ⟨UInt64.ofNat (Nat.find hnul), ⟨fun i hi hzero => ?_, Nat.find_spec hnul⟩⟩
    rw [UInt64.lt_iff_toNat_lt, UInt64.toNat_ofNat_of_lt' hlt] at hi
    refine Nat.find_min hnul hi ?_
    rw [UInt64.ofNat_toNat]
    exact hzero
  · right
    intro p hp
    refine hnul ⟨(p - src).toNat, ?_⟩
    have hback : src + (p - src) = p := by grind
    rw [UInt64.ofNat_toNat, hback]
    exact hp

/-- What a returned loop has copied. -/
theorem strcpyLoop_eq_some {budget : ℕ} (h : strcpyLoop m dest src budget = some m') :
    ∃ length, m.Terminated src length ∧ (dest = src ∨ length < dest - src) ∧
      m.Copied m' dest src length := by
  obtain ⟨length, hlength⟩ | hnone := exists_terminated_or m src
  · have hfar : dest = src ∨ length < dest - src := by
      by_contra hnear
      obtain ⟨hne, hle⟩ := not_or.mp hnear
      have hchase := strcpyLoop_chases hne (fun i hi => hlength.nonzero i
        (UInt64.lt_of_lt_of_le hi (UInt64.not_lt.mp hle))) budget
      rw [hchase] at h
      cases h
    obtain ⟨m'', hrun, hcopied⟩ := strcpyLoop_returns hlength hfar
      (Nat.lt_of_lt_of_le (Nat.lt_succ_self _) (le_max_right budget _))
    rw [strcpyLoop_mono h (le_max_left _ _)] at hrun
    cases hrun
    exact ⟨length, hlength, hfar, hcopied⟩
  · rw [strcpyLoop_endless hnone] at h
    cases h

/-! ### `strlen` -/

theorem Terminated.strlenFrom (h : m.Terminated src length) {k : ℕ} (hk : k ≤ length.toNat)
    (hint : k ≤ intMax) :
    m.strlenFrom src k = if length.toNat ≤ intMax then some length.toNat else none := by
  have hnul : k = length.toNat → m (src + UInt64.ofNat k) = 0 := by
    rintro rfl
    rw [UInt64.ofNat_toNat]
    exact h.nul
  fun_induction AddressSpace.strlenFrom m src k with
  | case1 k hbyte hlt ih =>
    have hne : k ≠ length.toNat := fun heq => hbyte (hnul heq)
    refine ih (by omega) hlt fun heq => ?_
    rw [heq, UInt64.ofNat_toNat]
    exact h.nul
  | case2 k hbyte hover =>
    have hne : k ≠ length.toNat := fun heq => hbyte (hnul heq)
    rw [if_neg (by omega)]
  | case3 k hbyte =>
    have hend : ¬k < length.toNat := fun hlt => by
      refine h.nonzero (UInt64.ofNat k) ?_ (not_not.mp hbyte)
      rw [UInt64.lt_iff_toNat_lt, UInt64.toNat_ofNat_of_lt' (hlt.trans length.toNat_lt_size)]
      exact hlt
    have heq : k = length.toNat := by omega
    rw [← heq, if_pos hint]

/-- The length of a string, if it is an `int`. -/
theorem Terminated.strlen (h : m.Terminated src length) :
    m.strlen src = if length.toNat ≤ intMax then some length.toNat else none :=
  h.strlenFrom (Nat.zero_le _) (Nat.zero_le _)

theorem Terminated.of_copied (h : m.Terminated src length) (hcopied : m.Copied m' dest src length) :
    m'.Terminated dest length where
  nonzero i hi := by
    rw [hcopied.inside i (UInt64.le_of_lt hi)]
    exact h.nonzero i hi
  nul := by
    rw [hcopied.inside length (UInt64.le_refl length)]
    exact h.nul

end Loop

/-- For every content of memory and every two pointers, also where the blocks overlap or wrap
around: `strcpy` returns just when there is a terminator and `dest` is not behind `src` within
the string. Then it returns `dest`, with the string there and nothing else changed, and
`strlen` says the same of the copy as of the string. -/
theorem strcpy_copies (m : AddressSpace) (dest src : UInt64) :
    ((∃ budget result, strcpy m dest src budget = some result) ↔
      ∃ length, m.Terminated src length ∧ (dest = src ∨ length < dest - src)) ∧
    ∀ budget p m', strcpy m dest src budget = some (p, m') →
      p = dest ∧ (∃ length, m.Terminated src length ∧ m.Copied m' dest src length) ∧
        m'.strlen dest = m.strlen src := by
  refine ⟨⟨?_, ?_⟩, ?_⟩
  · rintro ⟨budget, result, hrun⟩
    obtain ⟨m', hloop, -⟩ := Option.map_eq_some_iff.mp hrun
    obtain ⟨length, hlength, hfar, -⟩ := strcpyLoop_eq_some hloop
    exact ⟨length, hlength, hfar⟩
  · rintro ⟨length, hlength, hfar⟩
    obtain ⟨m', hloop, -⟩ := strcpyLoop_returns hlength hfar (Nat.lt_succ_self _)
    exact ⟨_, _, Option.map_eq_some_iff.mpr ⟨m', hloop, rfl⟩⟩
  · intro budget p m' hrun
    obtain ⟨m'', hloop, hresult⟩ := Option.map_eq_some_iff.mp hrun
    obtain ⟨rfl, rfl⟩ := Prod.mk.inj hresult
    obtain ⟨length, hlength, -, hcopied⟩ := strcpyLoop_eq_some hloop
    refine ⟨rfl, ⟨length, hlength, hcopied⟩, ?_⟩
    rw [hlength.strlen, (hlength.of_copied hcopied).strlen]

end EtyOS.AddressSpace
