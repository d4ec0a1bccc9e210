import Mathlib.Tactic
import Mathlib.Logic.Function.Basic

/-!
# Byte-addressed memory with little-endian words

A memory is a total function from addresses to bytes. Words of `n` bytes are
read and written least significant byte first, and every operation comes with
the frame lemma that says which addresses it leaves alone. Nothing here knows
what is stored in the memory.
-/

namespace EtyOS.Library

/-- A byte for every address. -/
abbrev Memory := ℕ → UInt8

namespace Memory

/-- The `n`-byte little-endian word at address `a`. -/
def load (m : Memory) (a : ℕ) : ℕ → ℕ
  | 0 => 0
  | n + 1 => (m a).toNat + 256 * load m (a + 1) n

/-- Write the low `n` bytes of `v` at address `a`, least significant first. -/
def store (m : Memory) (a : ℕ) : ℕ → ℕ → Memory
  | 0, _ => m
  | n + 1, v => store (Function.update m a (UInt8.ofNat v)) (a + 1) n (v / 256)

/-- Write the byte `v` to `n` consecutive addresses, in increasing order. -/
def fill (m : Memory) (a : ℕ) (v : UInt8) : ℕ → Memory
  | 0 => m
  | n + 1 => fill (Function.update m a v) (a + 1) v n

/-- Write a list of bytes to consecutive addresses. -/
def write (m : Memory) (a : ℕ) : List UInt8 → Memory
  | [] => m
  | b :: bs => write (Function.update m a b) (a + 1) bs

section Load

theorem load_lt (m : Memory) (a n : ℕ) : m.load a n < 256 ^ n := by
  induction n generalizing a with
  | zero => simp [load]
  | succ n ih =>
    have hbyte := (m a).toNat_lt
    have hrest := ih (a + 1)
    simp only [load, pow_succ]
    omega

/-- Reading a word looks at its own bytes only. -/
theorem load_congr {m m' : Memory} {a n : ℕ}
    (h : ∀ b, a ≤ b → b < a + n → m b = m' b) : m.load a n = m'.load a n := by
  induction n generalizing a with
  | zero => rfl
  | succ n ih =>
    have hrest := ih (a := a + 1) fun b hb hb' => h b (by omega) (by omega)
    simp only [load, h a le_rfl (by omega), hrest]

/-- A word is made of the words of its two parts. -/
theorem load_add (m : Memory) (a n k : ℕ) :
    m.load a (n + k) = m.load a n + 256 ^ n * m.load (a + n) k := by
  induction n generalizing a with
  | zero => simp [load]
  | succ n ih =>
    have haddr : a + (n + 1) = a + 1 + n := by omega
    rw [Nat.add_right_comm, load, load, ih, haddr, pow_succ]
    ring

theorem load_eq_zero {m : Memory} {a n : ℕ}
    (h : ∀ b, a ≤ b → b < a + n → m b = 0) : m.load a n = 0 := by
  induction n generalizing a with
  | zero => rfl
  | succ n ih =>
    have hrest := ih (a := a + 1) fun b hb hb' => h b (by omega) (by omega)
    simp [load, h a le_rfl (by omega), hrest]

/-- Two memories with the same word there have the same bytes there. -/
theorem load_injective {m m' : Memory} {a n : ℕ} (h : m.load a n = m'.load a n) :
    ∀ b, a ≤ b → b < a + n → m b = m' b := by
  induction n generalizing a with
  | zero => intro b hb hb'; omega
  | succ n ih =>
    simp only [load] at h
    have h₁ := (m a).toNat_lt
    have h₂ := (m' a).toNat_lt
    have hhead : (m a).toNat = (m' a).toNat := by omega
    have hrest : m.load (a + 1) n = m'.load (a + 1) n := by omega
    intro b hb hb'
    rcases Nat.eq_or_lt_of_le hb with rfl | hlt
    · exact UInt8.toNat_inj.mp hhead
    · exact ih hrest b (by omega) (by omega)

end Load

section Store

/-- Writing a word changes its own bytes only. -/
theorem store_frame (m : Memory) {a n b : ℕ} (v : ℕ) (h : b < a ∨ a + n ≤ b) :
    m.store a n v b = m b := by
  induction n generalizing m a v with
  | zero => rfl
  | succ n ih =>
    rw [store, ih _ _ (by omega)]
    exact Function.update_of_ne (by omega) _ _

theorem load_store_same (m : Memory) (a n v : ℕ) : (m.store a n v).load a n = v % 256 ^ n := by
  induction n generalizing m a v with
  | zero => simp [load, Nat.mod_one]
  | succ n ih =>
    have hhead : (m.store a (n + 1) v) a = UInt8.ofNat v := by
      rw [store, store_frame _ _ (by omega)]
      exact Function.update_self _ _ _
    have hrest : (m.store a (n + 1) v).load (a + 1) n = v / 256 % 256 ^ n := by
      rw [store, ih]
    rw [load, hhead, hrest, UInt8.toNat_ofNat', pow_succ' 256, Nat.mod_mul]

theorem load_store_of_lt (m : Memory) {a n v : ℕ} (h : v < 256 ^ n) :
    (m.store a n v).load a n = v := by
  rw [load_store_same, Nat.mod_eq_of_lt h]

/-- Words at disjoint addresses do not see each other. -/
theorem load_store_disjoint (m : Memory) {a n b k : ℕ} (v : ℕ)
    (h : b + k ≤ a ∨ a + n ≤ b) : (m.store a n v).load b k = m.load b k :=
  load_congr fun c _ _ => store_frame m v (by omega)

end Store

section Fill

theorem fill_apply (m : Memory) (a : ℕ) (v : UInt8) (n b : ℕ) :
    m.fill a v n b = if a ≤ b ∧ b < a + n then v else m b := by
  induction n generalizing m a with
  | zero => simp [fill]
  | succ n ih =>
    rw [fill, ih]
    by_cases hb : b = a
    · subst hb
      simp
    · rw [Function.update_of_ne hb]
      exact if_congr (by omega) rfl rfl

theorem fill_frame (m : Memory) {a n b : ℕ} (v : UInt8) (h : b < a ∨ a + n ≤ b) :
    m.fill a v n b = m b := by
  rw [fill_apply, if_neg (by omega)]

theorem load_fill_zero (m : Memory) {a n b k : ℕ} (hb : a ≤ b) (hk : b + k ≤ a + n) :
    (m.fill a 0 n).load b k = 0 :=
  load_eq_zero fun c hc hc' => by rw [fill_apply, if_pos (by omega)]

end Fill

section Write

theorem write_frame (m : Memory) {a b : ℕ} (bs : List UInt8) (h : b < a ∨ a + bs.length ≤ b) :
    m.write a bs b = m b := by
  induction bs generalizing m a with
  | nil => rfl
  | cons c cs ih =>
    simp only [List.length_cons] at h
    rw [write, ih _ (by omega)]
    exact Function.update_of_ne (by omega) _ _

theorem write_apply (m : Memory) (a : ℕ) (bs : List UInt8) (i : ℕ) :
    m.write a bs (a + i) = (bs[i]?).getD (m (a + i)) := by
  induction bs generalizing m a i with
  | nil => rfl
  | cons c cs ih =>
    rw [write]
    cases i with
    | zero => rw [write_frame _ _ (by omega), Nat.add_zero, Function.update_self]; rfl
    | succ i =>
      have haddr : a + (i + 1) = a + 1 + i := by omega
      rw [haddr, ih, Function.update_of_ne (by omega), List.getElem?_cons_succ]

end Write

section Words

/-- Write a list of `n`-byte words to consecutive addresses. -/
def storeWords (m : Memory) (a n : ℕ) : List ℕ → Memory
  | [] => m
  | v :: vs => storeWords (m.store a n v) (a + n) n vs

theorem storeWords_frame (m : Memory) {a n b : ℕ} (vs : List ℕ)
    (h : b < a ∨ a + n * vs.length ≤ b) : m.storeWords a n vs b = m b := by
  induction vs generalizing m a with
  | nil => rfl
  | cons v vs ih =>
    rw [List.length_cons, Nat.mul_succ] at h
    rw [storeWords, ih _ (by omega), store_frame _ _ (by omega)]

theorem load_storeWords (m : Memory) {a n k v : ℕ} {vs : List ℕ} (hk : vs[k]? = some v)
    (hv : v < 256 ^ n) : (m.storeWords a n vs).load (a + n * k) n = v := by
  induction vs generalizing m a k with
  | nil => simp at hk
  | cons w vs ih =>
    rw [storeWords]
    cases k with
    | zero =>
      obtain rfl : w = v := by simpa using hk
      rw [Nat.mul_zero, Nat.add_zero, load_congr fun b _ hb => storeWords_frame _ _ (Or.inl hb),
        load_store_of_lt m hv]
    | succ k =>
      have haddr : a + n * (k + 1) = a + n + n * k := by ring
      rw [haddr]
      exact ih _ (by simpa using hk)

theorem storeWords_append (m : Memory) (a n : ℕ) (vs ws : List ℕ) :
    m.storeWords a n (vs ++ ws) =
      (m.storeWords a n vs).storeWords (a + n * vs.length) n ws := by
  induction vs generalizing m a with
  | nil => rfl
  | cons v vs ih =>
    have haddr : a + n + n * vs.length = a + n * (v :: vs).length := by
      rw [List.length_cons]
      ring
    rw [List.cons_append, storeWords, storeWords, ih, haddr]

end Words

section Strings

/-- A string with its terminating zero. -/
def HoldsString (m : Memory) (a : ℕ) : List UInt8 → Prop
  | [] => m a = 0
  | c :: str => m a = c ∧ HoldsString m (a + 1) str

instance HoldsString.decidable (m : Memory) : (a : ℕ) → (str : List UInt8) →
    Decidable (m.HoldsString a str)
  | a, [] => inferInstanceAs (Decidable (m a = 0))
  | a, c :: str =>
    have := HoldsString.decidable m (a + 1) str
    inferInstanceAs (Decidable (m a = c ∧ m.HoldsString (a + 1) str))

theorem HoldsString.congr {m m' : Memory} {a : ℕ} {str : List UInt8} (h : m.HoldsString a str)
    (heq : ∀ b, a ≤ b → b ≤ a + str.length → m' b = m b) : m'.HoldsString a str := by
  induction str generalizing a with
  | nil => exact (heq a le_rfl le_rfl).trans h
  | cons c str ih =>
    rw [List.length_cons] at heq
    exact ⟨(heq a le_rfl (by omega)).trans h.1, ih h.2 fun b hb hb' => heq b (by omega) (by omega)⟩

end Strings

section Pointwise

/-- Whether a write changes an address, and to what, does not depend on the
rest of the memory. -/
theorem update_congr {m m' : Memory} {a b : ℕ} (v : UInt8) (h : m b = m' b) :
    Function.update m a v b = Function.update m' a v b := by
  by_cases hb : b = a
  · rw [hb, Function.update_self, Function.update_self]
  · rw [Function.update_of_ne hb, Function.update_of_ne hb, h]

theorem store_congr {m m' : Memory} {b : ℕ} (a n v : ℕ) (h : m b = m' b) :
    m.store a n v b = m'.store a n v b := by
  induction n generalizing m m' a v with
  | zero => exact h
  | succ n ih => exact ih _ _ (update_congr _ h)

theorem storeWords_congr {m m' : Memory} {b : ℕ} (a n : ℕ) (vs : List ℕ) (h : m b = m' b) :
    m.storeWords a n vs b = m'.storeWords a n vs b := by
  induction vs generalizing m m' a with
  | nil => exact h
  | cons v vs ih => exact ih _ (store_congr _ _ _ h)

theorem fill_congr {m m' : Memory} {b : ℕ} (a : ℕ) (v : UInt8) (n : ℕ) (h : m b = m' b) :
    m.fill a v n b = m'.fill a v n b := by
  rw [fill_apply, fill_apply, h]

theorem write_congr {m m' : Memory} {b : ℕ} (a : ℕ) (bs : List UInt8) (h : m b = m' b) :
    m.write a bs b = m'.write a bs b := by
  induction bs generalizing m m' a with
  | nil => exact h
  | cons c cs ih => exact ih _ (update_congr _ h)

end Pointwise

section Shift

/-- The memory seen from address `a` on. -/
def shift (m : Memory) (a : ℕ) : Memory := fun b => m (a + b)

theorem load_shift (m : Memory) (a b n : ℕ) : (m.shift a).load b n = m.load (a + b) n := by
  induction n generalizing b with
  | zero => rfl
  | succ n ih => rw [load, load, ih]; rfl

theorem shift_update (m : Memory) (a b : ℕ) (v : UInt8) :
    shift (Function.update m (a + b) v) a = Function.update (m.shift a) b v := by
  funext c
  by_cases hc : c = b
  · subst hc
    simp [shift]
  · rw [Function.update_of_ne hc, shift, Function.update_of_ne (by omega)]
    rfl

theorem shift_store (m : Memory) (a b n v : ℕ) :
    (m.store (a + b) n v).shift a = (m.shift a).store b n v := by
  induction n generalizing m b v with
  | zero => rfl
  | succ n ih => rw [store, store, Nat.add_assoc, ih, shift_update]

theorem shift_fill (m : Memory) (a b : ℕ) (v : UInt8) (n : ℕ) :
    (m.fill (a + b) v n).shift a = (m.shift a).fill b v n := by
  induction n generalizing m b with
  | zero => rfl
  | succ n ih => rw [fill, fill, Nat.add_assoc, ih, shift_update]

theorem shift_write (m : Memory) (a b : ℕ) (bs : List UInt8) :
    (m.write (a + b) bs).shift a = (m.shift a).write b bs := by
  induction bs generalizing m b with
  | nil => rfl
  | cons c cs ih => rw [write, write, Nat.add_assoc, ih, shift_update]

end Shift

section Regions

/-- The memories agree outside the `n` bytes from `a` on. -/
def SameOutside (m' m : Memory) (a n : ℕ) : Prop := ∀ b, b < a ∨ a + n ≤ b → m' b = m b

/-- The `n` bytes from `a` on are the first `n` bytes of `w`. -/
def Shows (m : Memory) (a n : ℕ) (w : Memory) : Prop := ∀ i < n, m (a + i) = w i

variable {m m' m'' w : Memory} {a n : ℕ}

theorem SameOutside.refl (m : Memory) (a n : ℕ) : SameOutside m m a n := fun _ _ => rfl

theorem SameOutside.trans (h : SameOutside m'' m' a n) (h' : SameOutside m' m a n) :
    SameOutside m'' m a n := fun b hb => (h b hb).trans (h' b hb)

theorem SameOutside.fill (h : SameOutside m' m a n) {b k : ℕ} (v : UInt8) (hb : a ≤ b)
    (hk : b + k ≤ a + n) : SameOutside (m'.fill b v k) m a n := by
  intro c hc
  rw [fill_frame _ _ (by omega), h c hc]

theorem SameOutside.update (h : SameOutside m' m a n) {b : ℕ} (v : UInt8) (hb : a ≤ b)
    (hn : b < a + n) : SameOutside (Function.update m' b v) m a n := by
  intro c hc
  rw [Function.update_of_ne (by omega), h c hc]

theorem shows_fill_zero (m : Memory) (a n : ℕ) : (m.fill a 0 n).Shows a n fun _ => 0 :=
  fun i hi => by rw [fill_apply, if_pos (by omega)]

theorem Shows.fill (h : m.Shows a n w) (b : ℕ) (v : UInt8) (k : ℕ) :
    (m.fill (a + b) v k).Shows a n (w.fill b v k) := by
  intro i hi
  change (m.fill (a + b) v k).shift a i = _
  rw [shift_fill]
  exact fill_congr b v k (h i hi)

theorem Shows.write (h : m.Shows a n w) (b : ℕ) (bs : List UInt8) :
    (m.write (a + b) bs).Shows a n (w.write b bs) := by
  intro i hi
  change (m.write (a + b) bs).shift a i = _
  rw [shift_write]
  exact write_congr b bs (h i hi)

theorem Shows.update (h : m.Shows a n w) (b : ℕ) (v : UInt8) :
    Shows (Function.update m (a + b) v) a n (Function.update w b v) := by
  intro i hi
  change shift (Function.update m (a + b) v) a i = _
  rw [shift_update]
  exact update_congr v (h i hi)

theorem Shows.load (h : m.Shows a n w) {b k : ℕ} (hk : b + k ≤ n) :
    m.load (a + b) k = w.load b k := by
  rw [← load_shift]
  exact load_congr fun c _ _ => h c (by omega)

theorem Shows.mono (h : m.Shows a n w) {k : ℕ} (hk : k ≤ n) : m.Shows a k w :=
  fun i hi => h i (by omega)

end Regions

end Memory

end EtyOS.Library
