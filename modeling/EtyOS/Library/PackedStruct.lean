import EtyOS.Library.ByteMemory

/-!
# Packed records in byte memory

A packed record type is a list of field names with their sizes in bytes; a
field starts where the fields before it end. Distinct fields do not overlap,
so a record is read and written field by field, and after a list of stores a
field holds the last value stored to it.
-/

namespace EtyOS.Library

/-- The fields of a record, in order, with their sizes. -/
structure Layout (F : Type) where
  fields : List (F × ℕ)

namespace Layout

variable {F : Type} [DecidableEq F] (L : Layout F)

/-- The number of bytes before the field `f`. -/
def offsetIn (f : F) : List (F × ℕ) → ℕ
  | [] => 0
  | (g, n) :: rest => if g = f then 0 else n + offsetIn f rest

def sizeIn (f : F) : List (F × ℕ) → ℕ
  | [] => 0
  | (g, n) :: rest => if g = f then n else sizeIn f rest

def offset (f : F) : ℕ := offsetIn f L.fields

def size (f : F) : ℕ := sizeIn f L.fields

def sizeof : ℕ := (L.fields.map Prod.snd).sum

/-- The value of field `f` of the record at address `a`. -/
def get (m : Memory) (a : ℕ) (f : F) : ℕ := m.load (a + L.offset f) (L.size f)

/-- Assign the field `f` of the record at address `a`. -/
def set (m : Memory) (a : ℕ) (f : F) (v : ℕ) : Memory := m.store (a + L.offset f) (L.size f) v

/-- Assign a list of fields, in order. -/
def setAll (m : Memory) (a : ℕ) : List (F × ℕ) → Memory
  | [] => m
  | (f, v) :: rest => setAll (L.set m a f v) a rest

section Offsets

theorem offsetIn_add_sizeIn_le (f : F) (fs : List (F × ℕ)) :
    offsetIn f fs + sizeIn f fs ≤ (fs.map Prod.snd).sum := by
  induction fs with
  | nil => simp [offsetIn, sizeIn]
  | cons g fs ih =>
    obtain ⟨g, n⟩ := g
    simp only [offsetIn, sizeIn, List.map_cons, List.sum_cons]
    split <;> omega

/-- Every field lies inside the record. -/
theorem offset_add_size_le (f : F) : L.offset f + L.size f ≤ L.sizeof :=
  offsetIn_add_sizeIn_le f L.fields

theorem offsetIn_disjoint {f g : F} (hfg : f ≠ g) (fs : List (F × ℕ)) :
    offsetIn f fs + sizeIn f fs ≤ offsetIn g fs ∨ offsetIn g fs + sizeIn g fs ≤ offsetIn f fs := by
  induction fs with
  | nil => simp [offsetIn, sizeIn]
  | cons e fs ih =>
    obtain ⟨e, n⟩ := e
    simp only [offsetIn, sizeIn]
    by_cases hf : e = f
    · subst hf
      simp [hfg]
    · by_cases hg : e = g
      · subst hg
        simp [hf]
      · simp only [if_neg hf, if_neg hg]
        omega

/-- Distinct fields do not overlap. -/
theorem offset_disjoint {f g : F} (hfg : f ≠ g) :
    L.offset f + L.size f ≤ L.offset g ∨ L.offset g + L.size g ≤ L.offset f :=
  offsetIn_disjoint hfg L.fields

end Offsets

section Access

theorem get_set_same (m : Memory) (a : ℕ) (f : F) (v : ℕ) :
    L.get (L.set m a f v) a f = v % 256 ^ L.size f :=
  Memory.load_store_same m _ _ v

theorem get_set_of_ne (m : Memory) (a : ℕ) {f g : F} (v : ℕ) (hfg : f ≠ g) :
    L.get (L.set m a f v) a g = L.get m a g :=
  Memory.load_store_disjoint m v (by have := L.offset_disjoint hfg; omega)

theorem set_frame (m : Memory) {a b : ℕ} (f : F) (v : ℕ) (h : b < a ∨ a + L.sizeof ≤ b) :
    L.set m a f v b = m b :=
  Memory.store_frame m v (by have := L.offset_add_size_le f; omega)

theorem setAll_frame (m : Memory) {a b : ℕ} (vs : List (F × ℕ))
    (h : b < a ∨ a + L.sizeof ≤ b) : L.setAll m a vs b = m b := by
  induction vs generalizing m with
  | nil => rfl
  | cons fv vs ih =>
    rw [setAll, ih, set_frame L m _ _ h]

/-- A byte outside the assigned fields keeps its value. -/
theorem setAll_apply_of_fields (m : Memory) {a b : ℕ} (vs : List (F × ℕ))
    (h : ∀ f ∈ vs.map Prod.fst, b < a + L.offset f ∨ a + L.offset f + L.size f ≤ b) :
    L.setAll m a vs b = m b := by
  induction vs generalizing m with
  | nil => rfl
  | cons fv vs ih =>
    have hhead : L.set m a fv.1 fv.2 b = m b := Memory.store_frame m _ (h fv.1 (by simp))
    rw [setAll, ih _ fun f hf => h f (by simp [hf]), hhead]

/-- A field that is not assigned keeps its value. -/
theorem get_setAll_of_not_mem (m : Memory) (a : ℕ) {f : F} (vs : List (F × ℕ))
    (hf : f ∉ vs.map Prod.fst) : L.get (L.setAll m a vs) a f = L.get m a f := by
  induction vs generalizing m with
  | nil => rfl
  | cons gv vs ih =>
    simp only [List.map_cons, List.mem_cons, not_or] at hf
    rw [setAll, ih _ hf.2, get_set_of_ne L _ _ _ (Ne.symm hf.1)]

/-- A field that is assigned once holds the value it was given. -/
theorem get_setAll (m : Memory) (a : ℕ) {f : F} {v : ℕ} {vs : List (F × ℕ)}
    (hnodup : (vs.map Prod.fst).Nodup) (hv : (f, v) ∈ vs) :
    L.get (L.setAll m a vs) a f = v % 256 ^ L.size f := by
  induction vs generalizing m with
  | nil => simp at hv
  | cons gv vs ih =>
    obtain ⟨hnot, hrest⟩ := List.nodup_cons.mp hnodup
    rcases List.mem_cons.mp hv with rfl | hv
    · rw [setAll, get_setAll_of_not_mem L _ _ _ hnot, get_set_same]
    · rw [setAll, ih _ hrest hv]

/-- A change inside one field does not touch the others. -/
theorem get_congr_of_ne {m m' : Memory} {a : ℕ} {f g : F} (hfg : f ≠ g)
    (h : ∀ b, b < a + L.offset f ∨ a + L.offset f + L.size f ≤ b → m' b = m b) :
    L.get m' a g = L.get m a g :=
  Memory.load_congr fun b _ _ => h b (by have := L.offset_disjoint hfg; omega)

theorem set_congr {m m' : Memory} {b : ℕ} (a : ℕ) (f : F) (v : ℕ) (h : m b = m' b) :
    L.set m a f v b = L.set m' a f v b :=
  Memory.store_congr _ _ _ h

theorem setAll_congr {m m' : Memory} {b : ℕ} (a : ℕ) (vs : List (F × ℕ)) (h : m b = m' b) :
    L.setAll m a vs b = L.setAll m' a vs b := by
  induction vs generalizing m m' with
  | nil => exact h
  | cons fv vs ih => exact ih (set_congr L _ _ _ h)

theorem shift_setAll (m : Memory) (a : ℕ) (vs : List (F × ℕ)) :
    (L.setAll m a vs).shift a = L.setAll (m.shift a) 0 vs := by
  induction vs generalizing m with
  | nil => rfl
  | cons fv vs ih => rw [setAll, setAll, ih, set, set, Memory.shift_store, Nat.zero_add]

theorem shows_setAll {m w : Memory} {a n : ℕ} (h : m.Shows a n w) (vs : List (F × ℕ)) :
    (L.setAll m a vs).Shows a n (L.setAll w 0 vs) := by
  intro i hi
  change (L.setAll m a vs).shift a i = _
  rw [shift_setAll]
  exact setAll_congr L 0 vs (h i hi)

theorem get_of_shows {m w : Memory} {a n : ℕ} (h : m.Shows a n w) {f : F}
    (hn : L.offset f + L.size f ≤ n) : L.get m a f = L.get w 0 f := by
  rw [get, get, h.load hn, Nat.zero_add]

theorem sameOutside_setAll {m m' : Memory} {a n : ℕ} (h : Memory.SameOutside m' m a n)
    (hn : L.sizeof ≤ n) (vs : List (F × ℕ)) : Memory.SameOutside (L.setAll m' a vs) m a n :=
  fun b hb => by rw [setAll_frame L _ _ (by omega), h b hb]

end Access

end Layout

end EtyOS.Library
