import Mathlib.Tactic

/-!
# The functions of `string.c`

A pointer into a C string is the list of the bytes from there to the final NUL.
The comparisons yield 0 for equal strings and for a common beginning, and
`strtoul` to base 10 yields the leading decimal digits modulo 2^32.
-/

namespace EtyOS

/-- The bytes of a string before the final NUL. -/
@[ext]
structure CString where
  bytes : List UInt8
  noNul : 0 ∉ bytes

/-- The bytes of a string literal. -/
def chars (s : String) : List UInt8 := s.toList.map fun c => UInt8.ofNat c.toNat

def strcmp : List UInt8 → List UInt8 → ℤ
  | [], [] => 0
  | [], b :: _ => -b.toNat
  | a :: _, [] => a.toNat
  | a :: as, b :: bs => if a = b then strcmp as bs else a.toNat - b.toNat

def strncmp : List UInt8 → List UInt8 → ℕ → ℤ
  | _, _, 0 => 0
  | [], [], _ + 1 => 0
  | [], b :: _, _ + 1 => -b.toNat
  | a :: _, [], _ + 1 => a.toNat
  | a :: as, b :: bs, n + 1 => if a = b then strncmp as bs n else a.toNat - b.toNat

/-- The rest of the string from the first `c` on. -/
def strchr : List UInt8 → UInt8 → Option (List UInt8)
  | [], _ => none
  | a :: as, c => if a = c then some (a :: as) else strchr as c

/-- The digit that a character stands for in some base. -/
def digitValue (c : UInt8) : Option ℕ :=
  if 48 ≤ c ∧ c ≤ 57 then some (c.toNat - 48)
  else if 65 ≤ c ∧ c ≤ 90 then some (c.toNat - 65 + 10)
  else if 97 ≤ c ∧ c ≤ 122 then some (c.toNat - 97 + 10)
  else none

/-- The loop of `strtoul`, with the rest that `endptr` would get. -/
def strtoulFrom (base : ℕ) (result : UInt32) : List UInt8 → UInt32 × List UInt8
  | [] => (result, [])
  | c :: rest =>
    match digitValue c with
    | none => (result, c :: rest)
    | some digit =>
      if digit ≥ base then (result, c :: rest)
      else strtoulFrom base (result * UInt32.ofNat base + UInt32.ofNat digit) rest

def strtoul (str : List UInt8) (base : ℕ) : UInt32 × List UInt8 := strtoulFrom base 0 str

/-- A 32-bit result stored in an `int`. -/
def cInt (v : UInt32) : ℤ := v.toBitVec.toInt

section Compare

theorem strcmp_eq_zero_iff (as bs : List UInt8) (has : 0 ∉ as) (hbs : 0 ∉ bs) :
    strcmp as bs = 0 ↔ as = bs := by
  induction as generalizing bs with
  | nil =>
    cases bs with
    | nil => simp [strcmp]
    | cons b bs =>
      have hb : b ≠ 0 := fun h => hbs (by simp [h])
      have hb' : b.toNat ≠ 0 := fun h => hb (UInt8.toNat_inj.mp h)
      simp only [strcmp, reduceCtorEq, iff_false]
      omega
  | cons a as ih =>
    have ha : a ≠ 0 := fun h => has (by simp [h])
    have ha' : a.toNat ≠ 0 := fun h => ha (UInt8.toNat_inj.mp h)
    cases bs with
    | nil =>
      simp only [strcmp, reduceCtorEq, iff_false]
      omega
    | cons b bs =>
      unfold strcmp
      by_cases hab : a = b
      · rw [if_pos hab, ih bs (fun h => has (by simp [h])) fun h => hbs (by simp [h]), hab]
        simp
      · have hab' : a.toNat ≠ b.toNat := fun h => hab (UInt8.toNat_inj.mp h)
        rw [if_neg hab]
        simp only [List.cons.injEq, hab, false_and, iff_false]
        omega

/-- `strncmp` over the length of the second string looks for it at the beginning. -/
theorem strncmp_eq_zero_iff (as bs : List UInt8) (hbs : 0 ∉ bs) :
    strncmp as bs bs.length = 0 ↔ bs <+: as := by
  induction bs generalizing as with
  | nil => simp [strncmp]
  | cons b bs ih =>
    have hb : b ≠ 0 := fun h => hbs (by simp [h])
    have hb' : b.toNat ≠ 0 := fun h => hb (UInt8.toNat_inj.mp h)
    cases as with
    | nil =>
      simp only [List.length_cons, strncmp, List.prefix_nil, reduceCtorEq, iff_false]
      omega
    | cons a as =>
      rw [List.length_cons, strncmp, List.cons_prefix_cons]
      by_cases hab : a = b
      · rw [if_pos hab, ih as fun h => hbs (by simp [h])]
        simp [hab]
      · have hab' : a.toNat ≠ b.toNat := fun h => hab (UInt8.toNat_inj.mp h)
        rw [if_neg hab]
        simp only [Ne.symm hab, false_and, iff_false]
        omega

/-- The bytes at the head differ, or both strings end: the comparison ends there. -/
theorem strcmp_of_head {as bs : List UInt8} (has : 0 ∉ as)
    (hstop : as.headD 0 = bs.headD 0 → as.headD 0 = 0) :
    strcmp as bs = (as.headD 0).toNat - (bs.headD 0).toNat := by
  cases as with
  | nil => cases bs <;> simp [strcmp]
  | cons a as =>
    have ha : a ≠ 0 := fun h => has (by simp [h])
    cases bs with
    | nil => simp [strcmp]
    | cons b bs => exact if_neg fun hab => ha (hstop hab)

theorem strncmp_eq_take (as bs : List UInt8) (n : ℕ) :
    strncmp as bs n = strcmp (as.take n) (bs.take n) := by
  induction n generalizing as bs with
  | zero => rw [strncmp, List.take_zero, List.take_zero, strcmp]
  | succ n ih =>
    cases as with
    | nil => cases bs <;> rfl
    | cons a as =>
      cases bs with
      | nil => rfl
      | cons b bs =>
        rw [strncmp, List.take_succ_cons, List.take_succ_cons, strcmp, ih]

theorem strcmp_antisymm (as bs : List UInt8) : strcmp bs as = -strcmp as bs := by
  induction as generalizing bs with
  | nil => cases bs <;> simp [strcmp]
  | cons a as ih =>
    cases bs with
    | nil => simp [strcmp]
    | cons b bs =>
      rw [strcmp, strcmp]
      by_cases hab : a = b
      · rw [if_pos hab, if_pos hab.symm, ih]
      · rw [if_neg hab, if_neg (Ne.symm hab), neg_sub]

/-- The order that `strcmp` decides is the lexicographic one of unsigned bytes. -/
theorem strcmp_neg_iff (as : List UInt8) {bs : List UInt8} (hbs : 0 ∉ bs) :
    strcmp as bs < 0 ↔ as < bs := by
  induction as generalizing bs with
  | nil =>
    cases bs with
    | nil => simp [strcmp]
    | cons b bs =>
      have hb : b ≠ 0 := fun h => hbs (by simp [h])
      have hb' : b.toNat ≠ 0 := fun h => hb (UInt8.toNat_inj.mp h)
      have hlt : -(b.toNat : ℤ) < 0 := by omega
      exact iff_of_true hlt (List.nil_lt_cons b bs)
  | cons a as ih =>
    cases bs with
    | nil =>
      rw [strcmp]
      exact iff_of_false (by omega) (List.not_lt_nil _)
    | cons b bs =>
      rw [strcmp, List.cons_lt_cons_iff]
      by_cases hab : a = b
      · rw [if_pos hab, ih fun h => hbs (List.mem_cons_of_mem b h), hab]
        simp
      · rw [if_neg hab, UInt8.lt_iff_toNat_lt]
        simp only [hab, false_and, or_false]
        omega

theorem strchr_eq (as : List UInt8) (c : UInt8) :
    strchr as c = if as.dropWhile (· ≠ c) = [] then none else some (as.dropWhile (· ≠ c)) := by
  induction as with
  | nil => rfl
  | cons a as ih =>
    unfold strchr
    by_cases ha : a = c
    · simp [ha]
    · rw [if_neg ha, ih]
      simp [ha]

end Compare

section Decimal

def IsDecimal (c : UInt8) : Prop := 48 ≤ c ∧ c ≤ 57

instance (c : UInt8) : Decidable (IsDecimal c) := inferInstanceAs (Decidable (_ ∧ _))

/-- The number that a string of decimal digits denotes. -/
def decimalValue (digits : List UInt8) : ℕ :=
  digits.foldl (fun v c => 10 * v + (c.toNat - 48)) 0

/-- The number at the beginning of a string. -/
def leadingValue (str : List UInt8) : ℕ := decimalValue (str.takeWhile fun c => IsDecimal c)

/-- A non-empty string of decimal digits that denotes a number below 2^32. -/
def IsNumeral (str : List UInt8) : Prop :=
  str ≠ [] ∧ (∀ c ∈ str, IsDecimal c) ∧ decimalValue str < 2 ^ 32

theorem digitValue_of_isDecimal {c : UInt8} (h : IsDecimal c) :
    digitValue c = some (c.toNat - 48) ∧ c.toNat - 48 < 10 := by
  have hhigh : c.toNat ≤ 57 := UInt8.le_iff_toNat_le.mp h.2
  exact ⟨if_pos h, by omega⟩

/-- A letter is no digit to base 10. -/
theorem digitValue_of_not_isDecimal {c : UInt8} (h : ¬IsDecimal c) :
    ∀ digit, digitValue c = some digit → 10 ≤ digit := by
  intro digit hdigit
  rw [digitValue, if_neg (show ¬(48 ≤ c ∧ c ≤ 57) from h)] at hdigit
  split at hdigit
  · have := Option.some.inj hdigit
    omega
  · split at hdigit
    · have := Option.some.inj hdigit
      omega
    · simp at hdigit

theorem strtoulFrom_ten (str : List UInt8) (result : UInt32) (v : ℕ)
    (hresult : result = UInt32.ofNat v) :
    strtoulFrom 10 result str =
      (UInt32.ofNat ((str.takeWhile fun c => IsDecimal c).foldl
        (fun v c => 10 * v + (c.toNat - 48)) v), str.dropWhile fun c => IsDecimal c) := by
  induction str generalizing result v with
  | nil => simp [strtoulFrom, hresult]
  | cons c rest ih =>
    unfold strtoulFrom
    by_cases hc : IsDecimal c
    · obtain ⟨hdigit, hlt⟩ := digitValue_of_isDecimal hc
      rw [hdigit]
      dsimp only
      rw [if_neg (by omega), ih _ (10 * v + (c.toNat - 48))]
      · simp [hc]
      · rw [hresult, UInt32.ofNat_add, UInt32.ofNat_mul, UInt32.mul_comm]
    · have hstop := digitValue_of_not_isDecimal hc
      cases hdigit : digitValue c with
      | none => simp [hc, hresult]
      | some digit => simp [hstop digit hdigit, hc, hresult]

/-- `strtoul` takes the leading digits and leaves the rest; the number wraps. -/
theorem strtoul_ten (str : List UInt8) :
    strtoul str 10 =
      (UInt32.ofNat (leadingValue str), str.dropWhile fun c => IsDecimal c) :=
  strtoulFrom_ten str 0 0 rfl

end Decimal

end EtyOS
