import Mathlib.Algebra.BigOperators.Group.Finset.Basic
import Mathlib.Algebra.BigOperators.Intervals
import Mathlib.Tactic.Lemma
import Mathlib.Tactic.Ring
import PocketMoE.Lib.Numerals

/-!
# Matrices with a scale for each block

A matrix is an array of codes, row after row, and every square of `b` by `b` entries has a scale; the
scales are a matrix themselves. Parts of both are copied out, by rows or by columns, into arrays behind
which other things lie. Cut at multiples of `b`, the parts have the entries of the whole
(`scaled_sliceRows`, `scaled_sliceCols`).
-/

namespace PocketMoE.Lib

variable {β K : Type*}

/-- An array of `count` entries, with what lies behind it. -/
def copied (behind : Nat → β) (count : Nat) (src : Nat → β) : Nat → β := fun i =>
  if i < count then src i else behind i

/-- Copy rows of a matrix of width `cols`. -/
def sliceRows (behind src : Nat → β) (rowStart rows cols : Nat) : Nat → β :=
  copied behind (rows * cols) fun i => src (rowStart * cols + i)

/-- Copy columns of a matrix of width `cols`. -/
def sliceCols (behind src : Nat → β) (rows cols colStart colCount : Nat) : Nat → β :=
  copied behind (rows * colCount) fun i => src (i / colCount * cols + colStart + i % colCount)

lemma entry_lt {row rows col cols : Nat} (hr : row < rows) (hc : col < cols) :
    row * cols + col < rows * cols :=
  calc row * cols + col < row * cols + cols := by omega
    _ = (row + 1) * cols := by ring
    _ ≤ rows * cols := Nat.mul_le_mul_right cols hr

lemma block_lt {b i n : Nat} (dvd : b ∣ n) (lt : i < n) : i / b < n / b := by
  obtain ⟨k, rfl⟩ := dvd
  have pos : 0 < b := Nat.pos_of_ne_zero fun zero => by simp [zero] at lt
  rw [Nat.mul_div_cancel_left k pos]
  exact Nat.div_lt_of_lt_mul lt

lemma add_block {b start : Nat} (dvd : b ∣ start) (i : Nat) :
    (start + i) / b = start / b + i / b := by
  obtain ⟨k, rfl⟩ := dvd
  rcases Nat.eq_zero_or_pos b with rfl | pos
  · simp
  · rw [Nat.mul_add_div pos, Nat.mul_div_cancel_left k pos]

lemma mul_add_div_of_lt {a b c : Nat} (h : c < b) : (a * b + c) / b = a := by
  rw [Nat.mul_comm, Nat.mul_add_div (by omega), Nat.div_eq_of_lt h, Nat.add_zero]

lemma sliceRows_entry (behind src : Nat → β) {rowStart rows cols row col : Nat} (hr : row < rows)
    (hc : col < cols) :
    sliceRows behind src rowStart rows cols (row * cols + col) =
      src ((rowStart + row) * cols + col) := by
  rw [sliceRows, copied, if_pos (entry_lt hr hc)]
  congr 1
  ring

lemma sliceCols_entry (behind src : Nat → β) {rows cols colStart colCount row col : Nat}
    (hr : row < rows) (hc : col < colCount) :
    sliceCols behind src rows cols colStart colCount (row * colCount + col) =
      src (row * cols + (colStart + col)) := by
  rw [sliceCols, copied, if_pos (entry_lt hr hc), mul_add_div_of_lt hc, Nat.mul_add_mod_of_lt hc,
    Nat.add_assoc]

section Scaled

variable [Mul K] (b : Nat) (value unit : β → K)

/-- An entry of a matrix of width `cols`, times the scale of its block. -/
def scaled (w s : Nat → β) (cols row col : Nat) : K :=
  value (w (row * cols + col)) * unit (s (row / b * (cols / b) + col / b))

variable {b value unit}

lemma scaled_sliceRows (behind behind' w s : Nat → β) {rowStart rows cols row col : Nat}
    (start : b ∣ rowStart) (whole : b ∣ rows) (width : b ∣ cols) (hr : row < rows)
    (hc : col < cols) :
    scaled b value unit (sliceRows behind w rowStart rows cols)
        (sliceRows behind' s (rowStart / b) (rows / b) (cols / b)) cols row col =
      scaled b value unit w s cols (rowStart + row) col := by
  rw [scaled, scaled, sliceRows_entry behind w hr hc,
    sliceRows_entry behind' s (block_lt whole hr) (block_lt width hc), add_block start]

lemma scaled_sliceCols (behind behind' w s : Nat → β) {rows cols colStart colCount row col : Nat}
    (start : b ∣ colStart) (whole : b ∣ rows) (width : b ∣ colCount) (hr : row < rows)
    (hc : col < colCount) :
    scaled b value unit (sliceCols behind w rows cols colStart colCount)
        (sliceCols behind' s (rows / b) (cols / b) (colStart / b) (colCount / b)) colCount row col =
      scaled b value unit w s cols row (colStart + col) := by
  rw [scaled, scaled, sliceCols_entry behind w hr hc,
    sliceCols_entry behind' s (block_lt whole hr) (block_lt width hc), add_block start]

lemma scaled_rows (w s : Nat → β) {start cols : Nat} (first : b ∣ start) (row col : Nat) :
    scaled b value unit (fun i => w (start * cols + i)) (fun i => s (start / b * (cols / b) + i))
        cols row col = scaled b value unit w s cols (start + row) col := by
  rw [scaled, scaled, add_block first, Nat.add_mul, Nat.add_mul, Nat.add_assoc, Nat.add_assoc]

end Scaled

lemma sum_parts [AddCommMonoid K] (f : Nat → K) (count size : Nat) :
    ∑ part ∈ Finset.range count, ∑ i ∈ Finset.range size, f (part * size + i) =
      ∑ i ∈ Finset.range (count * size), f i := by
  induction count with
  | zero => simp
  | succ count ih => rw [Finset.sum_range_succ, ih, Nat.succ_mul, Finset.sum_range_add]

end PocketMoE.Lib
