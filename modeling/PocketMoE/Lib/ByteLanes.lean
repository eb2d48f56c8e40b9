import Mathlib.Algebra.BigOperators.Intervals
import Mathlib.Data.Int.Basic
import Mathlib.Tactic.IntervalCases

/-!
# Words as bytes

The bytes of a 32-bit word, the lowest first, and the CUDA intrinsics on them: `bytePerm` picks
bytes of two words, `dp4a` adds the products of the bytes of two words.
-/

namespace PocketMoE.Lib

/-- A byte of a word. -/
def lane (w : BitVec 32) (j : ℕ) : BitVec 8 := w.extractLsb' (8 * j) 8

/-- Four bits of a word. -/
def nibble (w : BitVec 32) (j : ℕ) : BitVec 4 := w.extractLsb' (4 * j) 4

/-- The word of four bytes. -/
def pack4 (b : ℕ → BitVec 8) : BitVec 32 := b 3 ++ b 2 ++ b 1 ++ b 0

/-- `__byte_perm`: each byte is the one of `y` and `x` that four bits of `s` say. -/
def bytePerm (x y s : BitVec 32) : BitVec 32 :=
  pack4 fun j =>
    let i := (nibble s j).toNat % 8
    if i < 4 then lane x i else lane y (i - 4)

/-- `__dp4a`, without overflow. -/
def dp4a (a b : BitVec 32) (acc : ℤ) : ℤ :=
  acc + ∑ j ∈ Finset.range 4, (lane a j).toInt * (lane b j).toInt

lemma lane_pack4 (b : ℕ → BitVec 8) {j : ℕ} (lt : j < 4) : lane (pack4 b) j = b j := by
  show (b 3 ++ b 2 ++ b 1 ++ b 0).extractLsb' (8 * j) 8 = b j
  apply BitVec.eq_of_getLsbD_eq
  intro i hi
  simp only [BitVec.getLsbD_extractLsb', BitVec.getLsbD_append, hi, decide_true, Bool.true_and]
  interval_cases j
  · simp (disch := omega) only [if_pos]
    exact congrArg _ (by omega)
  · simp (disch := omega) only [if_neg, if_pos]
    exact congrArg _ (by omega)
  · simp (disch := omega) only [if_neg, if_pos]
    exact congrArg _ (by omega)
  · simp (disch := omega) only [if_neg]
    exact congrArg _ (by omega)

lemma lane_and (v w : BitVec 32) (j : ℕ) : lane (v &&& w) j = lane v j &&& lane w j :=
  BitVec.extractLsb'_and

lemma lane_or (v w : BitVec 32) (j : ℕ) : lane (v ||| w) j = lane v j ||| lane w j :=
  BitVec.extractLsb'_or

lemma lane_not (w : BitVec 32) {j : ℕ} (lt : j < 4) : lane (~~~w) j = ~~~lane w j := by
  apply BitVec.eq_of_getLsbD_eq
  intro i hi
  have inside : 8 * j + i < 32 := by omega
  simp [lane, hi, inside]

lemma nibble_and (v w : BitVec 32) (j : ℕ) : nibble (v &&& w) j = nibble v j &&& nibble w j :=
  BitVec.extractLsb'_and

lemma dp4a_pack4 (a b : ℕ → BitVec 8) (acc : ℤ) :
    dp4a (pack4 a) (pack4 b) acc = acc + ∑ j ∈ Finset.range 4, (a j).toInt * (b j).toInt := by
  unfold dp4a
  refine congrArg (acc + ·) (Finset.sum_congr rfl fun j member => ?_)
  have lt := Finset.mem_range.mp member
  rw [lane_pack4 a lt, lane_pack4 b lt]

end PocketMoE.Lib
