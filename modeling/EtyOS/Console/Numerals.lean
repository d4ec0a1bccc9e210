import EtyOS.Library.Numeral
import EtyOS.Console.CString
import EtyOS.Console.Scrollback

/-!
# Numbers as text

`print_int` fills its buffer from the end, `print_dec` from the front and prints
it backwards, `print_hex` scans the word from its first nibble on. All three
print the positional numeral of their number, and `strtoul` reads it back.
-/

namespace EtyOS

open Library MemoryBlock

/-- The character of a digit, as `print_hex_digit` chooses it. -/
def digitChar (d : ℕ) : UInt8 :=
  if d < 10 then 0x30 + UInt8.ofNat d else 0x41 + (UInt8.ofNat d - 10)

/-- The numeral of a number: its digits without leading zeros, or one zero. -/
def numeral (base n : ℕ) : List UInt8 :=
  if n = 0 then [0x30] else (Numeral.digits base n).map digitChar

section Digits

theorem digitChar_facts {d : ℕ} (hd : d < 16) :
    digitValue (digitChar d) = some d ∧ digitChar d ≠ 0 ∧ (digitChar d = 0x30 ↔ d = 0) := by
  revert d
  decide

/-- Two decimal digits are the character that the division loops store. -/
theorem digitChar_mod_ten (num : UInt32) :
    (0x30 + num % 10).toUInt8 = digitChar (num.toNat % 10) := by
  have hdigit : num.toNat % 10 < 10 := Nat.mod_lt _ (by decide)
  apply UInt8.toNat_inj.mp
  rw [digitChar, if_pos hdigit, UInt32.toNat_toUInt8, UInt32.toNat_add, UInt32.toNat_mod,
    UInt8.toNat_add, UInt8.toNat_ofNat']
  change (48 + num.toNat % 10) % 2 ^ 32 % 2 ^ 8 = (48 + num.toNat % 10 % 2 ^ 8) % 2 ^ 8
  omega

variable {base n : ℕ}

theorem mem_numeral (hbase : 1 < base) (hbase' : base ≤ 16) {c : UInt8} (hc : c ∈ numeral base n) :
    ∃ d < base, c = digitChar d := by
  unfold numeral at hc
  split at hc
  · exact ⟨0, by omega, List.mem_singleton.mp hc⟩
  · obtain ⟨d, hd, rfl⟩ := List.mem_map.mp hc
    exact ⟨d, Numeral.digits_lt hbase hd, rfl⟩

theorem nul_notMem_numeral (hbase : 1 < base) (hbase' : base ≤ 16) : 0 ∉ numeral base n := by
  intro hmem
  obtain ⟨d, hd, heq⟩ := mem_numeral hbase hbase' hmem
  exact (digitChar_facts (by omega)).2.1 heq.symm

/-- Only the numeral of zero begins with a zero. -/
theorem head_numeral (hbase : 1 < base) (hbase' : base ≤ 16)
    (hhead : (numeral base n).head? = some 0x30) : numeral base n = [0x30] := by
  unfold numeral at hhead ⊢
  split
  · rfl
  · rename_i hn
    rw [if_neg hn, List.head?_map] at hhead
    obtain ⟨d, hd, hzero⟩ := Option.map_eq_some_iff.mp hhead
    have hlt := Numeral.digits_lt hbase (List.mem_of_head? hd)
    have hd0 := (digitChar_facts (by omega)).2.2.mp hzero
    exact absurd hd0 (Numeral.head_digits_ne_zero hd)

/-- `strtoul` multiplies and adds along the digits of its base. -/
theorem strtoulFrom_map_digitChar (hbase' : base ≤ 16) (ds : List ℕ) (hds : ∀ d ∈ ds, d < base)
    (v : ℕ) :
    strtoulFrom base (UInt32.ofNat v) (ds.map digitChar) =
      (UInt32.ofNat (ds.foldl (fun v d => base * v + d) v), []) := by
  induction ds generalizing v with
  | nil => rfl
  | cons d ds ih =>
    have hd := hds d (by simp)
    rw [List.map_cons, strtoulFrom, (digitChar_facts (by omega)).1]
    dsimp only
    rw [if_neg (by omega), List.foldl_cons, ← ih fun e he => hds e (by simp [he])]
    rw [UInt32.ofNat_add, UInt32.ofNat_mul, UInt32.mul_comm]

/-- `strtoul` reads a numeral back and stops at its end. -/
theorem strtoul_numeral (hbase : 1 < base) (hbase' : base ≤ 16) (n : UInt32) :
    strtoul (numeral base n.toNat) base = (n, []) := by
  unfold strtoul numeral
  split
  · rename_i hzero
    obtain rfl : n = 0 := UInt32.toNat_inj.mp hzero
    have hread := strtoulFrom_map_digitChar hbase' [0] (fun d hd => by
      rw [List.mem_singleton.mp hd]
      omega) 0
    exact hread
  · have hread := strtoulFrom_map_digitChar hbase' (Numeral.digits base n.toNat)
      (fun d hd => Numeral.digits_lt hbase hd) 0
    rw [Numeral.foldl_digits, UInt32.ofNat_toNat] at hread
    exact hread

end Digits

namespace Console

/-- One call of `print_char` for each character. -/
def emit (str : List UInt8) (s : Console) : Console := str.foldl (fun s c => s.printChar c) s

@[simp] theorem emit_nil (s : Console) : emit [] s = s := rfl

@[simp] theorem emit_cons (c : UInt8) (str : List UInt8) (s : Console) :
    emit (c :: str) s = emit str (s.printChar c) := rfl

theorem emit_append (as bs : List UInt8) (s : Console) : emit (as ++ bs) s = emit bs (emit as s) :=
  List.foldl_append

theorem printStr_nul (str rest : List UInt8) (s : Console) :
    printStr (str ++ 0 :: rest) s = printStr str s := by
  induction str generalizing s with
  | nil => rfl
  | cons c str ih =>
    rw [List.cons_append, printStr_cons, printStr_cons, ih]

section Stores

/-- The stores of the loop of `print_int` into its buffer: index and byte. -/
def printIntStores : ℕ → UInt32 → List (ℕ × UInt8)
  | 0, _ => []
  | i + 1, num =>
    if 0 < num then (i, (0x30 + num % 10).toUInt8) :: printIntStores i (num / 10) else []

/-- The stores of the first loop of `print_dec` into its buffer. -/
def printDecStores (number : UInt32) (i : ℕ) : List (ℕ × UInt8) :=
  if 0 < number then
    (i, (0x30 + number % 10).toUInt8) :: printDecStores (number / 10) (i + 1)
  else []
termination_by number.toNat
decreasing_by
  rename_i hpos
  rw [UInt32.toNat_div]
  exact Nat.div_lt_self (UInt32.lt_iff_toNat_lt.mp hpos) (by decide)

/-- A buffer after some stores. -/
def storeBytes (stores : List (ℕ × UInt8)) (buffer : Memory) : Memory :=
  stores.foldl (fun m x => Function.update m x.1 x.2) buffer

theorem printIntLoop_stores (i : ℕ) (num : UInt32) (buffer : Memory) :
    (printIntLoop i num buffer).2 = storeBytes (printIntStores i num) buffer := by
  induction i generalizing num buffer with
  | zero => rfl
  | succ i ih =>
    rw [printIntLoop, printIntStores]
    split
    · exact ih _ _
    · rfl

theorem printDecFill_stores (number : UInt32) (i : ℕ) (buffer : Memory) :
    (printDecFill number i buffer).2 = storeBytes (printDecStores number i) buffer := by
  induction number, i, buffer using printDecFill.induct with
  | case1 number i buffer hpos ih =>
    rw [printDecFill, printDecStores, if_pos hpos, if_pos hpos, ih]
    rfl
  | case2 number i buffer hzero =>
    rw [printDecFill, printDecStores, if_neg hzero, if_neg hzero]
    rfl

theorem printIntStores_lt {i : ℕ} {num : UInt32} {x : ℕ × UInt8} (hx : x ∈ printIntStores i num) :
    x.1 < i := by
  induction i generalizing num with
  | zero => simp [printIntStores] at hx
  | succ i ih =>
    rw [printIntStores] at hx
    split at hx
    · rcases List.mem_cons.mp hx with rfl | hx
      · exact Nat.lt_succ_self i
      · exact Nat.lt_succ_of_lt (ih hx)
    · simp at hx

theorem uint32_pos_iff {num : UInt32} : 0 < num ↔ 0 < num.toNat := UInt32.lt_iff_toNat_lt

/-- One store a digit, from index `i` on. -/
theorem printDecStores_lt {number : UInt32} {i : ℕ} {x : ℕ × UInt8}
    (hx : x ∈ printDecStores number i) : x.1 < i + (Numeral.digits 10 number.toNat).length := by
  induction number, i using printDecStores.induct with
  | case1 number i hpos ih =>
    have hdigits := Numeral.digits_of_pos (b := 10) (by decide) (uint32_pos_iff.mp hpos)
    have hlength : (Numeral.digits 10 number.toNat).length =
        (Numeral.digits 10 (number / 10).toNat).length + 1 := by
      rw [hdigits, List.length_append, List.length_singleton, UInt32.toNat_div]
      rfl
    rw [printDecStores, if_pos hpos] at hx
    rcases List.mem_cons.mp hx with rfl | hx
    · omega
    · have := ih hx
      omega
  | case2 number i hzero =>
    rw [printDecStores, if_neg hzero] at hx
    simp at hx

/-- A 32-bit number has at most ten decimal digits. -/
theorem length_digits_ten (n : UInt32) : (Numeral.digits 10 n.toNat).length ≤ 10 := by
  have hbound := n.toNat_lt
  exact Numeral.length_digits_le (by decide) (by omega)

end Stores

section Print

/-- The loop of `print_int` puts the digits of its number in front of what is in
the buffer from `i` on. The induction is on `i`, and the last digit comes first. -/
theorem printIntLoop_digits (i : ℕ) (num : UInt32) (buffer : Memory) (hnum : num.toNat < 10 ^ i) :
    let digits := (Numeral.digits 10 num.toNat).map digitChar
    (printIntLoop i num buffer).1 + digits.length = i ∧
      (List.range digits.length).map
        (fun j => (printIntLoop i num buffer).2 ((printIntLoop i num buffer).1 + j)) = digits ∧
      ∀ j, i ≤ j → (printIntLoop i num buffer).2 j = buffer j := by
  induction i generalizing num buffer with
  | zero =>
    simp only [pow_zero, Nat.lt_one_iff] at hnum
    rw [hnum, Numeral.digits_zero]
    exact ⟨rfl, rfl, fun _ _ => rfl⟩
  | succ i ih =>
    rw [printIntLoop]
    by_cases hpos : 0 < num
    · have htenth : (num / 10).toNat = num.toNat / 10 := UInt32.toNat_div _ _
      obtain ⟨hlength, hmap, hrest⟩ := ih (num / 10)
        (Function.update buffer i (0x30 + num % 10).toUInt8) (by
          rw [htenth, Nat.div_lt_iff_lt_mul (by decide)]
          rwa [pow_succ] at hnum)
      rw [if_pos hpos, Numeral.digits_of_pos (by decide) (uint32_pos_iff.mp hpos), ← htenth,
        List.map_append, List.map_singleton, ← digitChar_mod_ten]
      refine ⟨?_, ?_, ?_⟩
      · rw [List.length_append, List.length_singleton]
        omega
      · rw [List.length_append, List.length_singleton, List.range_succ, List.map_append, hmap,
          List.map_singleton, hlength, hrest i le_rfl, Function.update_self]
      · intro j hj
        rw [hrest j (by omega), Function.update_of_ne (by omega)]
    · have hzero : num.toNat = 0 := Nat.eq_zero_of_not_pos fun h => hpos (uint32_pos_iff.mpr h)
      rw [if_neg hpos, hzero, Numeral.digits_zero]
      exact ⟨rfl, rfl, fun _ _ => rfl⟩

/-- `print_int` prints the numeral of its number, whatever its buffer held. -/
theorem printInt_eq_emit (num : UInt32) (buffer : Memory) (s : Console) :
    s.printInt num buffer = emit (numeral 10 num.toNat) s := by
  by_cases hzero : num = 0
  · subst hzero
    rfl
  · have hbound := num.toNat_lt
    have hlt : num.toNat < 10 ^ 10 := by omega
    have hpos : num.toNat ≠ 0 := fun h => hzero (UInt32.toNat_inj.mp h)
    have hnul : 0 ∉ numeral 10 num.toNat := nul_notMem_numeral (by decide) (by decide)
    obtain ⟨hlength, hmap, hrest⟩ := printIntLoop_digits 10 num (memoryZero buffer 0 11) hlt
    set digits := (Numeral.digits 10 num.toNat).map digitChar
    have hnumeral : numeral 10 num.toNat = digits := if_neg hpos
    have hlast : (printIntLoop 10 num (memoryZero buffer 0 11)).2 10 = 0 := by
      rw [hrest 10 le_rfl, memoryZero, Memory.fill_apply, if_pos (by omega)]
    have hbytes : 11 - (printIntLoop 10 num (memoryZero buffer 0 11)).1 = digits.length + 1 := by
      omega
    rw [hnumeral] at hnul ⊢
    rw [printInt, if_neg hzero]
    simp only [hbytes]
    rw [List.range_succ, List.map_append, hmap, List.map_singleton, hlength, hlast, printStr_nul,
      printStr_eq_foldl hnul]
    rfl

/-- What the loops of `print_dec` print between index `i` and the end of the
fill: the digits, last stored first. -/
theorem printDecDrain_fill (number : UInt32) (i : ℕ) (buffer : Memory) :
    (∀ k < i, (printDecFill number i buffer).2 k = buffer k) ∧
      ∀ s, printDecDrain (printDecFill number i buffer).1 (printDecFill number i buffer).2 s =
        printDecDrain i (printDecFill number i buffer).2
          (emit ((Numeral.digits 10 number.toNat).map digitChar) s) := by
  induction number, i, buffer using printDecFill.induct with
  | case1 number i buffer hpos ih =>
    obtain ⟨hkept, hdrain⟩ := ih
    have hdigits := Numeral.digits_of_pos (b := 10) (by decide) (uint32_pos_iff.mp hpos)
    have htenth : (number / 10).toNat = number.toNat / 10 := UInt32.toNat_div _ _
    rw [printDecFill, if_pos hpos]
    refine ⟨fun k hk => ?_, fun s => ?_⟩
    · rw [hkept k (by omega), Function.update_of_ne (by omega)]
    · rw [hdrain, printDecDrain, hkept i (by omega), Function.update_self, hdigits, ← htenth,
        List.map_append, List.map_singleton, ← digitChar_mod_ten, emit_append, emit_cons, emit_nil]
  | case2 number i buffer hzero =>
    have hnumber : number.toNat = 0 := Nat.eq_zero_of_not_pos fun h => hzero (uint32_pos_iff.mpr h)
    rw [printDecFill, if_neg hzero, hnumber, Numeral.digits_zero]
    exact ⟨fun _ _ => rfl, fun _ => rfl⟩

theorem printDec_eq_emit (number : UInt32) (buffer : Memory) (s : Console) :
    s.printDec number buffer = emit (numeral 10 number.toNat) s := by
  by_cases hzero : number = 0
  · subst hzero
    rfl
  · have hpos : number.toNat ≠ 0 := fun h => hzero (UInt32.toNat_inj.mp h)
    rw [printDec, if_neg hzero, numeral, if_neg hpos]
    exact (printDecDrain_fill number 0 buffer).2 s

theorem printHexDigit_eq (s : Console) {d : ℕ} (hd : d < 16) :
    s.printHexDigit (UInt8.ofNat d) = s.printChar (digitChar d) := by
  have hlt : UInt8.ofNat d < 10 ↔ d < 10 := by
    rw [UInt8.lt_iff_toNat_lt, UInt8.toNat_ofNat', Nat.mod_eq_of_lt (by omega)]
    rfl
  unfold printHexDigit digitChar
  by_cases hsmall : d < 10
  · rw [if_pos (hlt.mpr hsmall), if_pos hsmall]
  · rw [if_neg (mt hlt.mp hsmall), if_neg hsmall]

/-- The nibble that the loop of `print_hex` looks at. -/
theorem hexNibble (number : UInt32) {i : ℕ} (hi : i < 8) :
    ((number >>> UInt32.ofNat (i * 4)) &&& 0xF).toUInt8 =
      UInt8.ofNat (number.toNat / 16 ^ i % 16) := by
  have hshift : (UInt32.ofNat (i * 4)).toNat % 32 = 4 * i := by
    rw [UInt32.toNat_ofNat']
    omega
  apply UInt8.toNat_inj.mp
  rw [UInt32.toNat_toUInt8, UInt32.toNat_and, UInt32.toNat_shiftRight, hshift,
    Nat.shiftRight_eq_div_pow, pow_mul, show (0xF : UInt32).toNat = 2 ^ 4 - 1 from rfl,
    Nat.and_two_pow_sub_one_eq_mod, UInt8.toNat_ofNat']
  rfl

/-- Once a digit is out, the loop of `print_hex` prints every nibble below. -/
theorem printHexLoop_started (number : UInt32) {i : ℕ} (hi : i ≤ 8) (s : Console) :
    printHexLoop number i true s =
      emit ((Numeral.padded 16 i (number.toNat % 16 ^ i)).map digitChar) s := by
  induction i generalizing s with
  | zero => rfl
  | succ i ih =>
    have hdigit : number.toNat / 16 ^ i % 16 < 16 := Nat.mod_lt _ (by decide)
    have hlow : number.toNat % 16 ^ i < 16 ^ i := Nat.mod_lt _ (Nat.pow_pos (by decide))
    have hsplit : number.toNat % 16 ^ (i + 1) =
        number.toNat / 16 ^ i % 16 * 16 ^ i + number.toNat % 16 ^ i := by
      rw [Nat.mod_pow_succ, Nat.add_comm, Nat.mul_comm]
    rw [printHexLoop, hexNibble number (by omega)]
    simp only [or_true, if_true]
    rw [printHexDigit_eq s hdigit, ih (by omega), hsplit,
      Numeral.padded_top (by decide) hdigit hlow, List.map_cons, emit_cons]

/-- Before that it skips zeros, so it prints the digits of what is left. -/
theorem printHexLoop_digits (number : UInt32) {i : ℕ} (hi : i ≤ 8) (s : Console) :
    printHexLoop number i false s =
      emit ((Numeral.digits 16 (number.toNat % 16 ^ i)).map digitChar) s := by
  induction i with
  | zero =>
    rw [pow_zero, Nat.mod_one, Numeral.digits_zero]
    rfl
  | succ i ih =>
    have hdigit : number.toNat / 16 ^ i % 16 < 16 := Nat.mod_lt _ (by decide)
    have hpow : 0 < 16 ^ i := Nat.pow_pos (by decide)
    have hlow : number.toNat % 16 ^ i < 16 ^ i := Nat.mod_lt _ hpow
    have hsplit : number.toNat % 16 ^ (i + 1) =
        number.toNat / 16 ^ i % 16 * 16 ^ i + number.toNat % 16 ^ i := by
      rw [Nat.mod_pow_succ, Nat.add_comm, Nat.mul_comm]
    have hnibble := hexNibble number (by omega : i < 8)
    by_cases hzero : number.toNat / 16 ^ i % 16 = 0
    · rw [hzero] at hnibble
      rw [printHexLoop, hnibble, hsplit, hzero, Nat.zero_mul, Nat.zero_add, ← ih (by omega)]
      simp
    · have hne : UInt8.ofNat (number.toNat / 16 ^ i % 16) ≠ 0 := by
        intro heq
        have hnat := congrArg UInt8.toNat heq
        rw [UInt8.toNat_ofNat', Nat.mod_eq_of_lt (by omega)] at hnat
        exact hzero hnat
      have hbig : 16 ^ i ≤ number.toNat / 16 ^ i % 16 * 16 ^ i + number.toNat % 16 ^ i :=
        le_trans (Nat.le_mul_of_pos_left _ (Nat.pos_of_ne_zero hzero)) (Nat.le_add_right _ _)
      have hfit := Nat.mod_lt number.toNat (Nat.pow_pos (by decide) : 0 < 16 ^ (i + 1))
      rw [printHexLoop, hnibble, hsplit, Numeral.digits_eq_padded (by decide) hbig (hsplit ▸ hfit),
        Numeral.padded_top (by decide) hdigit hlow, List.map_cons, emit_cons,
        ← printHexDigit_eq s hdigit, ← printHexLoop_started number (by omega)]
      simp only [ne_eq, hne, not_false_eq_true, true_or, if_true]

theorem printHex_eq_emit (number : UInt32) (s : Console) :
    s.printHex number = emit ([0x30, 0x78] ++ numeral 16 number.toNat) s := by
  by_cases hzero : number = 0
  · subst hzero
    rfl
  · have hpos : number.toNat ≠ 0 := fun h => hzero (UInt32.toNat_inj.mp h)
    have hbound := number.toNat_lt
    rw [printHex, if_neg hzero, numeral, if_neg hpos, emit_append, printHexLoop_digits _ le_rfl,
      Nat.mod_eq_of_lt (by omega)]
    rfl

end Print

/-- `print_int` and `print_dec` print the decimal numeral of their number, with
all stores inside their 11 bytes, and `print_hex` prints the hexadecimal one
behind `0x`; the numerals have no leading zeros and `strtoul` reads the number
back and stops at their end. -/
theorem print_strtoul (n : UInt32) (buffer buffer' : Memory) :
    (∀ s, s.printInt n buffer = emit (numeral 10 n.toNat) s) ∧
      (∀ s, s.printDec n buffer' = emit (numeral 10 n.toNat) s) ∧
      (printIntLoop 10 n buffer).2 = storeBytes (printIntStores 10 n) buffer ∧
      (∀ x ∈ printIntStores 10 n, x.1 < 11) ∧
      (printDecFill n 0 buffer').2 = storeBytes (printDecStores n 0) buffer' ∧
      (∀ x ∈ printDecStores n 0, x.1 < 11) ∧
      ((numeral 10 n.toNat).head? = some 0x30 → numeral 10 n.toNat = [0x30]) ∧
      strtoul (numeral 10 n.toNat) 10 = (n, []) ∧
      (∀ s, s.printHex n = emit (chars "0x" ++ numeral 16 n.toNat) s) ∧
      ((numeral 16 n.toNat).head? = some 0x30 → numeral 16 n.toNat = [0x30]) ∧
      strtoul (numeral 16 n.toNat) 16 = (n, []) := by
  refine ⟨printInt_eq_emit n buffer, printDec_eq_emit n buffer', printIntLoop_stores 10 n buffer,
    ?_, printDecFill_stores n 0 buffer', ?_, head_numeral (by decide) (by decide),
    strtoul_numeral (by decide) (by decide) n, printHex_eq_emit n,
    head_numeral (by decide) (by decide), strtoul_numeral (by decide) (by decide) n⟩
  · intro x hx
    exact Nat.lt_succ_of_lt (printIntStores_lt hx)
  · intro x hx
    have hindex := printDecStores_lt hx
    have hlength := length_digits_ten n
    omega

end Console

end EtyOS
