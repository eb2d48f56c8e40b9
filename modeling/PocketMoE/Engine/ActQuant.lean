import Mathlib.Data.Finset.Lattice.Fold
import PocketMoE.Lib.BlockReduce
import PocketMoE.Lib.Loop
import PocketMoE.Lib.Rounding

/-!
# Fake quantisation of keys and values

Model of `fp8_act_quant_dequant_kernel` with its forms for rows (`cuda_ops.cu`), and of `act_quant`
in place over `blockfp8_act_quant_torch` (`kernels/ops.py`). A kernel changes the memory, one block
of values after the other in some order; arithmetic is exact.

The kernels round the scale to the nearest power of two and the values to integers, Python rounds
the scale up and the values to e4m3 numbers; `act_quant_iff` says which values come out the same.
-/

namespace PocketMoE.Engine.ActQuant

open PocketMoE.Lib

/-- `float8_e4m3fn`, up to its greatest number 448. -/
def e4m3 : Ieee.Format := ⟨4, 3⟩

section Cuda

/-- `round_pow2_device`. The logarithm of `x` rounds to `k` when `2 * x ^ 2` is at least `4 ^ k` and
less than `4 ^ (k + 1)`. -/
def roundPow2Device (x : ℚ) : ℚ := 2 ^ (Int.log 2 (2 * x ^ 2) / 2)

/-- `fp8_e4m3_quant_dequant` -/
def fp8E4m3QuantDequant (v scale : ℚ) : ℚ :=
  let q : ℚ := min 448 (max (-448) (halfEven (v / scale) : ℚ))
  q * scale

/-- The maximum the threads of a block leave in `partial[0]`. -/
def maxAbs (start blockSize : ℕ) (x : ℕ → ℚ) : ℚ :=
  blockReduce max 256 blockSize (fun _ => true) 0 fun i => |x (start + i)|

/-- A block of the kernels, for the values from `start` on. -/
def block (start blockSize : ℕ) (x : ℕ → ℚ) : ℕ → ℚ :=
  let scale := roundPow2Device (max (maxAbs start blockSize x) (1 / 10000) / 448)
  loop ((List.range 256).flatMap (strided 256 blockSize))
    (fun i x => Function.update x (start + i) (fp8E4m3QuantDequant (x (start + i)) scale)) x

/-- `fp8_act_quant_dequant_kernel`, its blocks in some order. -/
def fp8ActQuantDequantKernel (blockSize : ℕ) (order : List ℕ) (x : ℕ → ℚ) : ℕ → ℚ :=
  loop order (fun b => block (b * blockSize) blockSize) x

/-- `fp8_act_quant_dequant_rows_kernel`, its blocks (`blockIdx.x`, `blockIdx.y`) in some order. -/
def fp8ActQuantDequantRowsKernel (cols blockSize : ℕ) (order : List (ℕ × ℕ)) (x : ℕ → ℚ) : ℕ → ℚ :=
  loop order (fun p => block (p.2 * cols + p.1 * blockSize) blockSize) x

/-- `fp8_act_quant_dequant_rows_strided_kernel` -/
def fp8ActQuantDequantRowsStridedKernel (rowStride blockSize : ℕ) (order : List (ℕ × ℕ))
    (x : ℕ → ℚ) : ℕ → ℚ :=
  loop order (fun p => block (p.2 * rowStride + p.1 * blockSize) blockSize) x

end Cuda

section Python

/-- `_round_scale_pow2` -/
def roundScalePow2 (x : ℚ) : ℚ := 2 ^ Int.clog 2 (max x (2 ^ (-126 : ℤ)))

variable {blockSize : ℕ} (pos : 0 < blockSize) (x : ℕ → ℕ → ℚ)

/-- The maximum of a block. -/
def amax (row b : ℕ) : ℚ :=
  (Finset.range blockSize).sup' (Finset.nonempty_range_iff.mpr pos.ne')
    fun i => |x row (b * blockSize + i)|

/-- `blockfp8_act_quant_torch` with scales that are powers of two: the quantised values and the
scales of the blocks. -/
def blockfp8ActQuantTorch : (ℕ → ℕ → ℚ) × (ℕ → ℕ → ℚ) :=
  let scales row b := roundScalePow2 (max (amax pos x row b) (1 / 10000) / 448)
  let scaleFull row col := scales row (col / blockSize)
  (fun row col => e4m3.round (min 448 (max (-448) (x row col / scaleFull row col))), scales)

/-- `act_quant` in place. -/
def actQuant (row col : ℕ) : ℚ :=
  let (quant, scales) := blockfp8ActQuantTorch pos x
  quant row col * scales row (col / blockSize)

end Python

section Values

/-- A multiple of the coarser of two units is nearer than half of the finer one: the unit of the
rounding in the kernels, and the distance of the e4m3 numbers around the value. -/
def Near (unit v : ℚ) : Prop :=
  ∃ k : ℤ, |v - k * max unit (e4m3.step v)| ≤ min unit (e4m3.step v) / 2

/-- The condition on a value for the scale `s`, which is rounded up. -/
def Holds (nearest : Prop) (v : ℚ) : Prop :=
  nearest ∧ Near 1 v ∨ ¬nearest ∧ (|v| < 224 ∧ Near (1 / 2) v ∨ 224 ≤ |v| ∧ |v| ≤ 232)

lemma round_eq_iff (j : ℤ) (v : ℚ) : toGrid ((2 : ℚ) ^ j) v = e4m3.round v ↔ Near (2 ^ j) v :=
  toGrid_eq_iff j _ v

lemma round_top {v : ℚ} (low : 224 ≤ v) (high : v ≤ 448) : e4m3.round v = 224 ↔ v ≤ 232 := by
  have size : |v| = v := abs_of_nonneg (by linarith)
  unfold Ieee.Format.round toGrid
  rcases lt_or_ge v 256 with small | large
  · have hstep : e4m3.step v = 16 := by
      rw [e4m3.step_eq (j := 7) (by rw [size]; norm_num; linarith)
        (by rw [size]; norm_num; linarith) (by decide)]
      norm_num [e4m3]
    rw [hstep]
    constructor
    · intro same
      have hround := halfEven_near (v / 16)
      have : (halfEven (v / 16) : ℚ) = 14 := by linarith
      rw [this, abs_le] at hround
      linarith
    · intro le
      have hround : halfEven (v / 16) = 14 := by
        apply halfEven_of_even
        · rw [abs_le]
          push_cast
          constructor <;> linarith
        · decide
      rw [hround]
      norm_num
  · have hstep : e4m3.step v = 32 := by
      rw [e4m3.step_eq (j := 8) (by rw [size]; norm_num; linarith)
        (by rw [size]; norm_num; linarith) (by decide)]
      norm_num [e4m3]
    rw [hstep]
    constructor
    · intro same
      have hround := halfEven_near (v / 32)
      have : (halfEven (v / 32) : ℚ) = 7 := by linarith
      rw [this, abs_le] at hround
      linarith
    · intro le
      linarith

lemma roundPow2Device_eq {m : ℚ} (pos : 0 < m) :
    roundPow2Device m = if (2 ^ Int.clog 2 m) ^ 2 ≤ 2 * m ^ 2 then 2 ^ Int.clog 2 m
      else 2 ^ Int.clog 2 m / 2 := by
  have above : m ≤ ((2 : ℕ) : ℚ) ^ Int.clog 2 m := Int.self_le_zpow_clog (by decide) m
  have below : ((2 : ℕ) : ℚ) ^ (Int.clog 2 m - 1) < m := Int.zpow_pred_clog_lt_self (by decide) pos
  push_cast at above below
  unfold roundPow2Device
  generalize Int.clog 2 m = p at above below ⊢
  have square : 0 < 2 * m ^ 2 := by positivity
  have half : (2 : ℚ) ^ p = 2 * 2 ^ (p - 1) := by
    rw [← zpow_one_add₀ two_ne_zero]
    congr 1
    ring
  have posPow : (0 : ℚ) < 2 ^ (p - 1) := zpow_pos (by norm_num) _
  have double (z : ℤ) : (2 : ℚ) ^ (2 * z) = (2 ^ z) ^ 2 := by
    rw [mul_comm, zpow_mul, zpow_ofNat]
  split_ifs with nearest
  · have low : 2 * p ≤ Int.log 2 (2 * m ^ 2) := by
      rw [← Int.zpow_le_iff_le_log (by decide) square]
      push_cast
      rwa [double]
    have high : Int.log 2 (2 * m ^ 2) < 2 * p + 2 := by
      rw [← Int.lt_zpow_iff_log_lt (by decide) square]
      push_cast
      have hexp : 2 * p + 2 = 2 * (p + 1) := by ring
      rw [hexp, double, zpow_add_one₀ two_ne_zero]
      nlinarith
    congr 1
    omega
  · have low : 2 * p - 1 ≤ Int.log 2 (2 * m ^ 2) := by
      rw [← Int.zpow_le_iff_le_log (by decide) square]
      push_cast
      have hexp : 2 * p - 1 = 2 * (p - 1) + 1 := by ring
      rw [hexp, zpow_add_one₀ two_ne_zero, double]
      nlinarith
    have high : Int.log 2 (2 * m ^ 2) < 2 * p := by
      rw [← Int.lt_zpow_iff_log_lt (by decide) square]
      push_cast
      rw [double]
      exact not_le.mp nearest
    have hexp : Int.log 2 (2 * m ^ 2) / 2 = p - 1 := by omega
    rw [hexp, half]
    field_simp

lemma cut_of_le {q : ℤ} (bound : |q| ≤ 448) : min 448 (max (-448) (q : ℚ)) = q := by
  have bound' : |(q : ℚ)| ≤ 448 := by exact_mod_cast bound
  rw [abs_le] at bound'
  rw [max_eq_right bound'.1, min_eq_right bound'.2]

lemma cut_neg (q : ℚ) : min 448 (max (-448) (-q)) = -min 448 (max (-448) q) := by
  rw [min_def, max_def, min_def, max_def]
  split_ifs <;> linarith

lemma cut_of_ge {v : ℚ} (low : 224 ≤ v) : min 448 (max (-448) (halfEven (2 * v) : ℚ)) = 448 := by
  have hround := halfEven_near (2 * v)
  rw [abs_le] at hround
  have hlow : ((447 : ℤ) : ℚ) < (halfEven (2 * v) : ℚ) := by
    push_cast
    linarith
  have hcut : 448 ≤ halfEven (2 * v) := Int.add_one_le_iff.mpr (Int.cast_lt.mp hlow)
  have : (448 : ℚ) ≤ (halfEven (2 * v) : ℚ) := by exact_mod_cast hcut
  rw [max_eq_right (by linarith), min_eq_left this]

lemma half_iff {v : ℚ} (bound : |v| ≤ 448) :
    min 448 (max (-448) (halfEven (2 * v) : ℚ)) = 2 * e4m3.round v ↔
      |v| < 224 ∧ Near (1 / 2) v ∨ 224 ≤ |v| ∧ |v| ≤ 232 := by
  rcases lt_or_ge |v| 224 with small | large
  · have hcut : |halfEven (2 * v)| ≤ 448 := by
      apply halfEven_abs_le
      rw [abs_mul, abs_of_pos (by norm_num : (0 : ℚ) < 2)]
      push_cast
      linarith
    have hunit : (2 : ℚ) ^ (-1 : ℤ) = 1 / 2 := by norm_num
    have hgrid : (halfEven (2 * v) : ℚ) = 2 * toGrid (1 / 2) v := by
      have hscale : v / (1 / 2) = 2 * v := by ring
      unfold toGrid
      rw [hscale]
      ring
    have near := round_eq_iff (-1) v
    rw [hunit] at near
    rw [cut_of_le hcut, hgrid, mul_right_inj' two_ne_zero, near]
    simp only [small, true_and, not_le.mpr small, false_and, or_false]
  · have top : |v| ≤ 232 ↔ min 448 (max (-448) (halfEven (2 * v) : ℚ)) = 2 * e4m3.round v := by
      rcases abs_cases v with ⟨same, _⟩ | ⟨same, _⟩
      · rw [same] at large bound ⊢
        rw [cut_of_ge large, ← round_top large bound]
        constructor <;> intro h <;> linarith
      · rw [same] at large bound ⊢
        have hneg : (halfEven (2 * v) : ℚ) = -(halfEven (2 * -v) : ℚ) := by
          rw [mul_neg, halfEven_neg]
          push_cast
          ring
        rw [hneg, cut_neg, cut_of_ge large, ← round_top large bound, Ieee.Format.round_neg]
        constructor <;> intro h <;> linarith
    rw [← top]
    simp only [not_lt.mpr large, false_and, large, true_and, false_or]

lemma value_iff {m x : ℚ} (pos : 0 < m) (bound : |x| ≤ 448 * m) :
    let s := 2 ^ Int.clog 2 m
    fp8E4m3QuantDequant x (roundPow2Device m) =
        e4m3.round (min 448 (max (-448) (x / s))) * s ↔
      Holds (s ^ 2 ≤ 2 * m ^ 2) (x / s) := by
  intro s
  have posS : (0 : ℚ) < s := zpow_pos (by norm_num) _
  have above : m ≤ s := by
    have := Int.self_le_zpow_clog (b := 2) (by decide) m
    push_cast at this
    exact this
  have cut : |x / s| ≤ 448 := by
    rw [abs_div, abs_of_pos posS, div_le_iff₀ posS]
    linarith
  have cut' := abs_le.mp cut
  rw [max_eq_right cut'.1, min_eq_right cut'.2, roundPow2Device_eq pos]
  unfold fp8E4m3QuantDequant Holds
  change _ = _ ↔ _
  by_cases nearest : s ^ 2 ≤ 2 * m ^ 2
  · have hcut : |halfEven (x / s)| ≤ 448 := halfEven_abs_le (by exact_mod_cast cut)
    have hgrid : (halfEven (x / s) : ℚ) = toGrid ((2 : ℚ) ^ (0 : ℤ)) (x / s) := by
      unfold toGrid
      rw [zpow_zero, div_one, mul_one]
    simp only
    rw [if_pos nearest, cut_of_le hcut, mul_left_inj' posS.ne', hgrid, round_eq_iff, zpow_zero]
    simp only [nearest, true_and, not_true_eq_false, false_and, or_false]
  · have hscale : x / (s / 2) = 2 * (x / s) := by field_simp
    have half : ∀ q r : ℚ, q * (s / 2) = r * s ↔ q = 2 * r := by
      intro q r
      have hmul : r * s = 2 * r * (s / 2) := by ring
      rw [hmul, mul_left_inj' (by positivity)]
    simp only
    rw [if_neg nearest]
    change min 448 (max (-448) (halfEven (x / (s / 2)) : ℚ)) * (s / 2) = _ ↔ _
    rw [hscale, half, half_iff cut]
    simp only [nearest, false_and, not_false_eq_true, true_and, false_or]

end Values

section Blocks

variable {blockSize : ℕ} (pos : 0 < blockSize)

/-- The maximum of the sizes of the values of a block. -/
def blockMax (v : ℕ → ℚ) : ℚ :=
  (Finset.range blockSize).sup' (Finset.nonempty_range_iff.mpr pos.ne') fun i => |v i|

/-- The least scale of a block: its maximum, at least 1e-4, comes to 448. -/
def least (v : ℕ → ℚ) : ℚ := max (blockMax pos v) (1 / 10000) / 448

lemma least_pos (v : ℕ → ℚ) : 0 < least pos v := by
  unfold least
  have small : (0 : ℚ) < 1 / 10000 := by norm_num
  exact div_pos (lt_max_of_lt_right small) (by norm_num)

lemma le_least (v : ℕ → ℚ) {i : ℕ} (inside : i < blockSize) : |v i| ≤ 448 * least pos v := by
  have most : |v i| ≤ blockMax pos v :=
    Finset.le_sup' (fun i => |v i|) (Finset.mem_range.mpr inside)
  have scale : 448 * least pos v = max (blockMax pos v) (1 / 10000) := by
    unfold least
    field_simp
  rw [scale]
  exact most.trans (le_max_left _ _)

lemma least_congr {v w : ℕ → ℚ} (same : ∀ i < blockSize, v i = w i) :
    least pos v = least pos w := by
  unfold least blockMax
  congr 2
  refine Finset.sup'_congr _ rfl fun i inside => ?_
  rw [same i (Finset.mem_range.mp inside)]

lemma maxAbs_eq (start : ℕ) (x : ℕ → ℚ) :
    maxAbs start blockSize x = blockMax pos fun i => x (start + i) := by
  have lub : IsLUB (insert (0 : ℚ) {k | ∃ i < blockSize, true ∧ |x (start + i)| = k})
      (maxAbs start blockSize x) := by
    have sup : ∀ a b : ℚ, id (max a b) = id a ⊔ id b := fun _ _ => rfl
    exact blockReduce_isLUB sup 8 blockSize (fun _ => true) 0 fun i => |x (start + i)|
  apply lub.unique
  constructor
  · rintro k (rfl | ⟨i, inside, -, rfl⟩)
    · exact (abs_nonneg _).trans
        (Finset.le_sup' (fun i => |x (start + i)|) (Finset.mem_range.mpr pos))
    · exact Finset.le_sup' (fun i => |x (start + i)|) (Finset.mem_range.mpr inside)
  · intro bound above
    apply Finset.sup'_le
    intro i inside
    exact above (.inr ⟨i, Finset.mem_range.mp inside, rfl, rfl⟩)

lemma block_cell (start : ℕ) (x : ℕ → ℚ) {i : ℕ} (inside : i < blockSize) :
    block start blockSize x (start + i) = fp8E4m3QuantDequant (x (start + i))
      (roundPow2Device (least pos fun i => x (start + i))) := by
  have places := strided_perm (show 0 < 256 by decide) blockSize
  unfold block
  rw [maxAbs_eq pos]
  refine loop_part (fun x : ℕ → ℚ => x (start + i)) (fun v => fp8E4m3QuantDequant v _) _
    (fun x => Function.update_self ..) (fun j _ ne x => ?_) (places.nodup_iff.mpr List.nodup_range)
    (places.mem_iff.mpr (List.mem_range.mpr inside)) x
  exact Function.update_of_ne (by omega) ..

lemma block_other (start : ℕ) (x : ℕ → ℚ) {c : ℕ} (apart : c < start ∨ start + blockSize ≤ c) :
    block start blockSize x c = x c := by
  have places := strided_perm (show 0 < 256 by decide) blockSize
  refine loop_frame (fun x : ℕ → ℚ => x c) (fun i member x => ?_) x
  have inside := List.mem_range.mp (places.mem_iff.mp member)
  exact Function.update_of_ne (by omega) ..

lemma blocks_cell {ι : Type} (start : ι → ℕ) {order : List ι} (nodup : order.Nodup)
    (apart : ∀ p ∈ order, ∀ q ∈ order, p ≠ q →
      start p + blockSize ≤ start q ∨ start q + blockSize ≤ start p)
    {p : ι} (member : p ∈ order) (x : ℕ → ℚ) {i : ℕ} (inside : i < blockSize) :
    loop order (fun p => block (start p) blockSize) x (start p + i) =
      fp8E4m3QuantDequant (x (start p + i))
        (roundPow2Device (least pos fun i => x (start p + i))) := by
  have part := loop_part (fun x : ℕ → ℚ => fun i : Fin blockSize => x (start p + i))
    (fun v i => fp8E4m3QuantDequant (v i) (roundPow2Device
      (least pos fun i => if lt : i < blockSize then v ⟨i, lt⟩ else 0)))
    (fun p => block (start p) blockSize) ?_ ?_ nodup member x
  · have same : (least pos fun i => if i < blockSize then x (start p + i) else 0) =
        least pos fun i => x (start p + i) :=
      least_congr pos fun i lt => if_pos lt
    have here := congrFun part ⟨i, inside⟩
    simp only [dite_eq_ite] at here
    rwa [same] at here
  · intro x
    funext i
    have same : (least pos fun i => if i < blockSize then x (start p + i) else 0) =
        least pos fun i => x (start p + i) :=
      least_congr pos fun i lt => if_pos lt
    simp only [dite_eq_ite]
    rw [same, block_cell pos (start p) x i.isLt]
  · intro q other ne x
    funext i
    have := apart q other p member ne
    exact block_other (start q) x (by omega)

/-- The condition on a block. -/
def BlockHolds (v : ℕ → ℚ) : Prop :=
  let s := 2 ^ Int.clog 2 (least pos v)
  ∀ i < blockSize, Holds (s ^ 2 ≤ 2 * least pos v ^ 2) (v i / s)

lemma actQuant_eq (x : ℕ → ℕ → ℚ) (row b : ℕ) {i : ℕ} (inside : i < blockSize) :
    actQuant pos x row (b * blockSize + i) =
      e4m3.round (min 448 (max (-448) (x row (b * blockSize + i) /
        2 ^ Int.clog 2 (least pos fun i => x row (b * blockSize + i))))) *
      2 ^ Int.clog 2 (least pos fun i => x row (b * blockSize + i)) := by
  have here : (b * blockSize + i) / blockSize = b := by
    rw [Nat.mul_comm, Nat.mul_add_div pos, Nat.div_eq_of_lt inside, Nat.add_zero]
  have tiny : (2 : ℚ) ^ (-126 : ℤ) ≤ least pos fun i => x row (b * blockSize + i) := by
    unfold least
    have floor : (1 : ℚ) / 10000 / 448 ≤
        max (blockMax pos fun i => x row (b * blockSize + i)) (1 / 10000) / 448 := by
      apply div_le_div_of_nonneg_right (le_max_right _ _)
      norm_num
    refine le_trans ?_ floor
    norm_num
  unfold actQuant blockfp8ActQuantTorch roundScalePow2
  simp only [here]
  change e4m3.round (min 448 (max (-448) (_ / 2 ^ Int.clog 2 (max (least pos _) _)))) *
    2 ^ Int.clog 2 (max (least pos _) _) = _
  rw [max_eq_left tiny]

lemma block_iff (x : ℕ → ℕ → ℚ) (row b : ℕ) :
    (∀ i < blockSize, fp8E4m3QuantDequant (x row (b * blockSize + i))
        (roundPow2Device (least pos fun i => x row (b * blockSize + i))) =
      actQuant pos x row (b * blockSize + i)) ↔
      BlockHolds pos fun i => x row (b * blockSize + i) := by
  unfold BlockHolds
  refine forall₂_congr fun i inside => ?_
  rw [actQuant_eq pos x row b inside]
  exact value_iff (least_pos pos _) (le_least pos (fun i => x row (b * blockSize + i)) inside)

end Blocks

section Grid

variable {blockSize cols rowStride rows : ℕ} (pos : 0 < blockSize)

lemma starts_apart (dvd : blockSize ∣ cols) (wide : cols ≤ rowStride) {p q : ℕ × ℕ}
    (inP : p.1 < cols / blockSize) (inQ : q.1 < cols / blockSize) (ne : p ≠ q) :
    p.2 * rowStride + p.1 * blockSize + blockSize ≤ q.2 * rowStride + q.1 * blockSize ∨
      q.2 * rowStride + q.1 * blockSize + blockSize ≤ p.2 * rowStride + p.1 * blockSize := by
  have next {a b : ℕ} (lt : a < b) : a * blockSize + blockSize ≤ b * blockSize := by
    rw [← Nat.succ_mul]
    exact Nat.mul_le_mul_right blockSize lt
  have row {p : ℕ × ℕ} (inside : p.1 < cols / blockSize) :
      p.1 * blockSize + blockSize ≤ rowStride := by
    have := next inside
    rw [Nat.div_mul_cancel dvd] at this
    omega
  have nextRow {a b : ℕ} (lt : a < b) : a * rowStride + rowStride ≤ b * rowStride := by
    rw [← Nat.succ_mul]
    exact Nat.mul_le_mul_right rowStride lt
  rcases lt_trichotomy p.2 q.2 with lt | same | lt
  · have := nextRow lt
    have := row inP
    omega
  · have apart : p.1 ≠ q.1 := fun eq => ne (Prod.ext eq same)
    rw [same]
    rcases Nat.lt_or_gt_of_ne apart with lt | lt
    · have := next lt
      omega
    · have := next lt
      omega
  · have := nextRow lt
    have := row inQ
    omega

lemma strided_iff (dvd : blockSize ∣ cols) (wide : cols ≤ rowStride) {order : List (ℕ × ℕ)}
    (perm : order.Perm (List.range (cols / blockSize) ×ˢ List.range rows)) (x : ℕ → ℚ) :
    (∀ row < rows, ∀ col < cols, fp8ActQuantDequantRowsStridedKernel rowStride blockSize order x
        (row * rowStride + col) = actQuant pos (fun row col => x (row * rowStride + col)) row col) ↔
      ∀ row < rows, ∀ b < cols / blockSize,
        BlockHolds pos fun i => x (row * rowStride + (b * blockSize + i)) := by
  have inside {p : ℕ × ℕ} : p ∈ order ↔ p.1 < cols / blockSize ∧ p.2 < rows := by
    obtain ⟨b, row⟩ := p
    rw [perm.mem_iff]
    exact List.pair_mem_product.trans (and_congr List.mem_range List.mem_range)
  have nodup : order.Nodup :=
    perm.nodup_iff.mpr (List.nodup_range.product List.nodup_range)
  have cell {row b i : ℕ} (inRow : row < rows) (inBlock : b < cols / blockSize)
      (lt : i < blockSize) :
      fp8ActQuantDequantRowsStridedKernel rowStride blockSize order x
          (row * rowStride + (b * blockSize + i)) =
        fp8E4m3QuantDequant (x (row * rowStride + (b * blockSize + i))) (roundPow2Device
          (least pos fun i => x (row * rowStride + (b * blockSize + i)))) := by
    have here := blocks_cell pos (fun p : ℕ × ℕ => p.2 * rowStride + p.1 * blockSize) nodup
      (fun p inP q inQ ne => starts_apart dvd wide (inside.mp inP).1 (inside.mp inQ).1 ne)
      (inside.mpr (show (b, row).1 < _ ∧ _ from ⟨inBlock, inRow⟩)) x lt
    simp only [Nat.add_assoc] at here
    exact here
  refine forall₂_congr fun row inRow => ?_
  constructor
  · intro same b inBlock
    rw [← block_iff pos (fun row col => x (row * rowStride + col)) row b]
    intro i lt
    have col : b * blockSize + i < cols := by
      calc b * blockSize + i < b * blockSize + blockSize := by omega
        _ = (b + 1) * blockSize := (Nat.succ_mul ..).symm
        _ ≤ cols / blockSize * blockSize := Nat.mul_le_mul_right _ inBlock
        _ = cols := Nat.div_mul_cancel dvd
    rw [← same _ col, cell inRow inBlock lt]
  · intro holds col inCol
    have inBlock : col / blockSize < cols / blockSize := Nat.div_lt_div_of_lt_of_dvd dvd inCol
    have here := (block_iff pos (fun row col => x (row * rowStride + col)) row _).mpr
      (holds _ inBlock) _ (Nat.mod_lt col pos)
    rw [← cell inRow inBlock (Nat.mod_lt col pos), Nat.div_add_mod'] at here
    exact here

end Grid

/-- The kernels, in any order of their blocks, leave the values of Python's `act_quant` exactly
where the condition holds: where the nearest power of two is the one above, values near an integer
that is an e4m3 number; elsewhere values near a half of an integer that is one, or between 224 and
232 scales. -/
theorem act_quant_iff {blockSize cols : ℕ} (pos : 0 < blockSize) (dvd : blockSize ∣ cols)
    (x : ℕ → ℚ) :
    (∀ order : List ℕ, order.Perm (List.range (cols / blockSize)) →
      ((∀ col < cols, fp8ActQuantDequantKernel blockSize order x col =
          actQuant pos (fun _ col => x col) 0 col) ↔
        ∀ b < cols / blockSize, BlockHolds pos fun i => x (b * blockSize + i))) ∧
    (∀ rows, ∀ order : List (ℕ × ℕ),
      order.Perm (List.range (cols / blockSize) ×ˢ List.range rows) →
      ((∀ row < rows, ∀ col < cols,
          fp8ActQuantDequantRowsKernel cols blockSize order x (row * cols + col) =
            actQuant pos (fun row col => x (row * cols + col)) row col) ↔
        ∀ row < rows, ∀ b < cols / blockSize,
          BlockHolds pos fun i => x (row * cols + (b * blockSize + i)))) ∧
    ∀ rowStride ≥ cols, ∀ rows, ∀ order : List (ℕ × ℕ),
      order.Perm (List.range (cols / blockSize) ×ˢ List.range rows) →
      ((∀ row < rows, ∀ col < cols,
          fp8ActQuantDequantRowsStridedKernel rowStride blockSize order x (row * rowStride + col) =
            actQuant pos (fun row col => x (row * rowStride + col)) row col) ↔
        ∀ row < rows, ∀ b < cols / blockSize,
          BlockHolds pos fun i => x (row * rowStride + (b * blockSize + i))) := by
  refine ⟨?_, ?_, ?_⟩
  · intro order perm
    have perm' : (order.map fun b => (b, 0)).Perm
        (List.range (cols / blockSize) ×ˢ List.range 1) := by
      have pairs : List.range (cols / blockSize) ×ˢ List.range 1 =
          (List.range (cols / blockSize)).map fun b => (b, 0) := by
        simp only [SProd.sprod, List.product, List.range_one, List.map_cons, List.map_nil]
        exact List.map_eq_flatMap.symm
      rw [pairs]
      exact perm.map _
    have same : fp8ActQuantDequantKernel blockSize order x =
        fp8ActQuantDequantRowsStridedKernel cols blockSize (order.map fun b => (b, 0)) x := by
      unfold fp8ActQuantDequantKernel fp8ActQuantDequantRowsStridedKernel loop
      rw [List.foldl_map]
      simp only [Nat.zero_mul, Nat.zero_add]
    have one := strided_iff pos dvd le_rfl perm' x
    simp only [Nat.lt_one_iff, forall_eq, Nat.zero_mul, Nat.zero_add] at one
    rw [same]
    have python : ∀ col, actQuant pos (fun _ col => x col) 0 col =
        actQuant pos (fun row col => x (row * cols + col)) 0 col := by
      intro col
      unfold actQuant blockfp8ActQuantTorch amax
      simp only [Nat.zero_mul, Nat.zero_add]
    simp only [python]
    exact one
  · intro rows order perm
    exact strided_iff pos dvd le_rfl perm x
  · intro rowStride wide rows order perm
    exact strided_iff pos dvd wide perm x

/-- Two blocks of two values, in one row and in two rows with and without a gap. -/
theorem act_quant_iff_four :
    let x : ℕ → ℚ := fun i => i
    let grid : List (ℕ × ℕ) := [(1, 0), (0, 1), (0, 0), (1, 1)]
    ((∀ col < 4, fp8ActQuantDequantKernel 2 [1, 0] x col =
          actQuant two_pos (fun _ col => x col) 0 col) ↔
        ∀ b < 4 / 2, BlockHolds two_pos fun i => x (b * 2 + i)) ∧
      ((∀ row < 2, ∀ col < 4, fp8ActQuantDequantRowsKernel 4 2 grid x (row * 4 + col) =
          actQuant two_pos (fun row col => x (row * 4 + col)) row col) ↔
        ∀ row < 2, ∀ b < 4 / 2, BlockHolds two_pos fun i => x (row * 4 + (b * 2 + i))) ∧
      ((∀ row < 2, ∀ col < 4, fp8ActQuantDequantRowsStridedKernel 6 2 grid x (row * 6 + col) =
          actQuant two_pos (fun row col => x (row * 6 + col)) row col) ↔
        ∀ row < 2, ∀ b < 4 / 2, BlockHolds two_pos fun i => x (row * 6 + (b * 2 + i))) := by
  intro x grid
  have all := act_quant_iff two_pos (show 2 ∣ 4 by decide) x
  refine ⟨all.1 [1, 0] (by decide), all.2.1 2 grid (by decide), ?_⟩
  exact all.2.2 6 (by decide) 2 grid (by decide)

/-- A block with the scale 1: the kernel rounds 1.5 to 2, Python keeps it. -/
theorem act_quant_differs :
    let x : ℕ → ℚ := fun i => if i = 0 then 3 / 2 else 448
    fp8ActQuantDequantKernel 2 [0] x 0 ≠ actQuant two_pos (fun _ col => x col) 0 0 := by
  intro x same
  have hleast : (least two_pos fun i => x (0 * 2 + i)) = 1 := by
    unfold least blockMax
    have hmax : ((Finset.range 2).sup' (Finset.nonempty_range_iff.mpr two_pos.ne')
        fun i => |x (0 * 2 + i)|) = 448 := by decide +kernel
    rw [hmax]
    norm_num
  have hcell : fp8ActQuantDequantKernel 2 [0] x 0 = _ :=
    block_cell two_pos (0 * 2) x (i := 0) two_pos
  rw [hcell] at same
  have holds := (value_iff (m := 1) (x := x 0) one_pos (by decide +kernel)).mp ?_
  · rw [Int.clog_one_right, zpow_zero, div_one] at holds
    obtain ⟨-, k, near⟩ | ⟨other, -⟩ := holds
    · have hstep : e4m3.step (x 0) = 1 / 8 := by
        rw [e4m3.step_eq (j := 0) (by decide +kernel) (by decide +kernel) (by decide)]
        norm_num [e4m3]
      have hvalue : x 0 = 3 / 2 := rfl
      rw [hstep, hvalue] at near
      norm_num [abs_le] at near
      have low : ((1 : ℤ) : ℚ) < k := by
        push_cast
        linarith
      have high : (k : ℚ) < ((2 : ℤ) : ℚ) := by
        push_cast
        linarith
      have := Int.cast_lt.mp low
      have := Int.cast_lt.mp high
      omega
    · exact other (by norm_num)
  · have python := actQuant_eq two_pos (fun _ col => x col) 0 0 (i := 0) two_pos
    simp only [Nat.zero_mul, Nat.zero_add] at same python hleast
    rw [hleast] at python same
    rw [same, python]

end PocketMoE.Engine.ActQuant
