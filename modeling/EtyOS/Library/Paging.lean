import EtyOS.Library.ByteMemory

/-!
# The page walk of long mode

Four levels of tables with 512 entries of 8 bytes in a physical memory. A walk
ends at a page, at an entry that is not present, or at one with reserved bits
set. Physical addresses have at most 52 bits, and the execute-disable bit is
reserved, as it is while `EFER.NXE` is clear.
-/

namespace EtyOS.Library.Paging

/-- Where a virtual address leads. -/
inductive Translation where
  | page (address size : ℕ) (writable : Bool)
  | notPresent
  | reserved
deriving DecidableEq

def Present (entry : ℕ) : Prop := entry % 2 = 1

def Writable (entry : ℕ) : Prop := entry / 2 % 2 = 1

/-- The PS bit, which makes an entry above the last level a large page. -/
def IsLarge (entry : ℕ) : Prop := entry / 2 ^ 7 % 2 = 1

instance (entry : ℕ) : Decidable (Present entry) := inferInstanceAs (Decidable (_ = _))

instance (entry : ℕ) : Decidable (Writable entry) := inferInstanceAs (Decidable (_ = _))

instance (entry : ℕ) : Decidable (IsLarge entry) := inferInstanceAs (Decidable (_ = _))

/-- The bytes that one entry covers with `level` levels of tables below it. -/
def span (level : ℕ) : ℕ := 2 ^ (12 + 9 * level)

/-- The entry of the table at `table` that a virtual address selects. -/
def entryOf (m : Memory) (table level v : ℕ) : ℕ := m.load (table + v / span level % 512 * 8) 8

/-- The address in an entry, at a multiple of `size`. -/
def frameOf (entry size : ℕ) : ℕ := entry % 2 ^ 52 / size * size

/-- The bits of a large page between the PAT bit and its frame, and bit 63, are to be zero;
the entries of the top level are no large pages. -/
def ReservedClear (entry level : ℕ) : Prop :=
  entry / 2 ^ 63 % 2 = 0 ∧ (IsLarge entry → level ≠ 0 → level ≠ 3 ∧ entry % span level / 2 ^ 13 = 0)

instance (entry level : ℕ) : Decidable (ReservedClear entry level) :=
  inferInstanceAs (Decidable (_ ∧ _))

/-- The walk from the table at `table`, with `level` levels below it; `writable` says
whether all entries so far allow writes. -/
def walkFrom (m : Memory) (v : ℕ) : (level table : ℕ) → (writable : Bool) → Translation
  | 0, table, writable =>
    let entry := entryOf m table 0 v
    if ¬Present entry then .notPresent
    else if ¬ReservedClear entry 0 then .reserved
    else .page (frameOf entry (span 0) + v % span 0) (span 0) (writable && decide (Writable entry))
  | level + 1, table, writable =>
    let entry := entryOf m table (level + 1) v
    let writable := writable && decide (Writable entry)
    if ¬Present entry then .notPresent
    else if ¬ReservedClear entry (level + 1) then .reserved
    else if IsLarge entry then
      .page (frameOf entry (span (level + 1)) + v % span (level + 1)) (span (level + 1)) writable
    else walkFrom m v level (frameOf entry (span 0)) writable

/-- The walk of a 48-bit virtual address from the table that `cr3` points to. -/
def walk (m : Memory) (cr3 v : ℕ) : Translation := walkFrom m v 3 cr3 true

section Walk

variable {m : Memory} {v level table : ℕ} {writable : Bool}

theorem walkFrom_of_not_present (h : ¬Present (entryOf m table level v)) :
    walkFrom m v level table writable = .notPresent := by
  cases level with
  | zero => rw [walkFrom, if_pos h]
  | succ level => rw [walkFrom, if_pos h]

/-- An entry that points to a table. -/
theorem walkFrom_of_table {next : ℕ} (hpresent : Present (entryOf m table (level + 1) v))
    (hwritable : Writable (entryOf m table (level + 1) v))
    (hclear : entryOf m table (level + 1) v / 2 ^ 63 % 2 = 0)
    (hsmall : ¬IsLarge (entryOf m table (level + 1) v))
    (hnext : frameOf (entryOf m table (level + 1) v) (span 0) = next) :
    walkFrom m v (level + 1) table writable = walkFrom m v level next writable := by
  have hreserved : ReservedClear (entryOf m table (level + 1) v) (level + 1) :=
    ⟨hclear, fun h => absurd h hsmall⟩
  rw [walkFrom]
  simp only [hpresent, hreserved, hsmall, hwritable, hnext, not_true_eq_false, if_false,
    decide_true, Bool.and_true]

/-- An entry that is a large page. -/
theorem walkFrom_of_large (hpresent : Present (entryOf m table (level + 1) v))
    (hwritable : Writable (entryOf m table (level + 1) v))
    (hreserved : ReservedClear (entryOf m table (level + 1) v) (level + 1))
    (hlarge : IsLarge (entryOf m table (level + 1) v)) :
    walkFrom m v (level + 1) table writable =
      .page (frameOf (entryOf m table (level + 1) v) (span (level + 1)) + v % span (level + 1))
        (span (level + 1)) writable := by
  rw [walkFrom]
  simp only [hpresent, hreserved, hlarge, hwritable, not_true_eq_false, if_false, if_true,
    decide_true, Bool.and_true]

end Walk

end EtyOS.Library.Paging
