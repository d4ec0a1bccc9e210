import Mathlib.Tactic

/-!
# A range cut into pieces of one size

`total` items are cut into pieces of `size` items, and the last piece takes what
remains. Every piece has an item, none has more than `size`, and a sum over the
pieces is settled by the size and the last piece alone.
-/

namespace EtyOS.Library.Tiling

/-- The number of pieces. -/
def count (size total : ℕ) : ℕ := (total + size - 1) / size

/-- The number of items in piece `g`. -/
def piece (size total g : ℕ) : ℕ := min size (total - size * g)

variable {size total g : ℕ}

theorem lt_count_iff (hsize : 0 < size) : g < count size total ↔ size * g < total := by
  rw [count, ← Nat.succ_le_iff, Nat.le_div_iff_mul_le hsize, Nat.succ_mul, Nat.mul_comm]
  omega

theorem count_pos (hsize : 0 < size) (htotal : 0 < total) : 0 < count size total := by
  apply (lt_count_iff hsize).mpr
  simpa using htotal

/-- The pieces reach the end of the range. -/
theorem le_mul_count (hsize : 0 < size) (total : ℕ) : total ≤ size * count size total :=
  Nat.le_of_not_lt fun h => lt_irrefl _ ((lt_count_iff hsize).mpr h)

theorem piece_le : piece size total g ≤ size := Nat.min_le_left _ _

theorem piece_pos (hsize : 0 < size) (hg : g < count size total) : 0 < piece size total g := by
  have hstart := (lt_count_iff hsize).mp hg
  unfold piece
  omega

/-- A piece that is not the last is whole. -/
theorem piece_of_succ_lt (hsize : 0 < size) (hg : g + 1 < count size total) :
    piece size total g = size := by
  have hnext := (lt_count_iff hsize).mp hg
  rw [Nat.mul_succ] at hnext
  unfold piece
  omega

/-- The last piece is the rest. -/
theorem piece_last (hsize : 0 < size) (hg : g + 1 = count size total) :
    piece size total g = total - size * g := by
  have hend := le_mul_count hsize total
  rw [← hg, Nat.mul_succ] at hend
  unfold piece
  omega

/-- Whatever is added up over the pieces, all but the last contribute the same. -/
theorem sum_map_piece (hsize : 0 < size) {n : ℕ} (hn : n + 1 = count size total) (f : ℕ → ℕ) :
    ((List.range (count size total)).map fun g => f (piece size total g)).sum =
      n * f size + f (total - size * n) := by
  have hwhole : (List.range n).map (fun g => f (piece size total g)) =
      List.replicate n (f size) := by
    apply List.ext_getElem
    · simp
    · intro g hg _
      rw [List.length_map, List.length_range] at hg
      simp only [List.getElem_map, List.getElem_range, List.getElem_replicate]
      rw [piece_of_succ_lt hsize (by omega)]
  rw [← hn, List.range_succ, List.map_append, List.sum_append, hwhole, List.sum_replicate]
  simp only [List.map_cons, List.map_nil, List.sum_singleton, smul_eq_mul]
  rw [piece_last hsize hn]

/-- The pieces add up to the whole. -/
theorem sum_piece (hsize : 0 < size) (htotal : 0 < total) :
    ((List.range (count size total)).map (piece size total)).sum = total := by
  obtain ⟨n, hn⟩ := Nat.exists_eq_succ_of_ne_zero (count_pos hsize htotal).ne'
  have hstart : size * n < total := (lt_count_iff hsize).mp (by omega)
  have hsum := sum_map_piece hsize hn.symm id
  simp only [id_eq] at hsum
  rw [hsum, Nat.mul_comm]
  omega

end EtyOS.Library.Tiling
