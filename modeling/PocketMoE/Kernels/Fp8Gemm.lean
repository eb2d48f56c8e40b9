import Mathlib.Algebra.BigOperators.Intervals
import Mathlib.Algebra.BigOperators.Ring.Finset
import Mathlib.Data.Rat.Cast.CharZero
import PocketMoE.Lib.Ieee
import PocketMoE.Lib.TileGrid

/-!
# The FP8 block GEMM

Model of `_soft_fp8_blockfp8_gemm_kernel` with its launch in `soft_fp8_blockfp8_gemm_triton`, and of
`soft_fp8_blockfp8_gemm_torch` (`kernels/ops.py`). The kernel is the list of its stores, program after
program. Arithmetic is exact in a field; a float made by moving bits is decoded as one.
-/

namespace PocketMoE.Kernels.Fp8Gemm

open PocketMoE.Lib PocketMoE.Lib.Ieee

/-- A byte of `float8_e4m3fn` that is a number. -/
structure E4m3 where
  byte : BitVec 8
  notNaN : byte ≠ 0x7F ∧ byte ≠ 0xFF

/-- Its value: four bits of exponent with bias 7 and three of fraction. -/
def e4m3Value (byte : BitVec 8) : ℚ :=
  let e := byte.toNat / 8 % 16
  let m := byte.toNat % 8
  let magnitude : ℚ := if e = 0 then m * 2 ^ (-9 : ℤ) else (8 + m) * 2 ^ (e - 10 : ℤ)
  if byte.toNat / 128 = 1 then -magnitude else magnitude

/-- The number a float stands for. -/
def toRat : Value → ℚ
  | .finite negative magnitude => if negative then -magnitude else magnitude
  | .infinite _ => 0
  | .nan _ _ => 0

/-- `(t << 20) & -2014314496` of the byte as a signed integer, read as a float. -/
def unscaled (byte : BitVec 8) : ℚ :=
  let t := byte.signExtend 32
  toRat (binary32.decode ((t <<< 20) &&& BitVec.ofInt 32 (-2014314496)).toNat)

/-- The float with the bits 7b800000. -/
def fp8ToFp32Scale : ℚ := toRat (binary32.decode 0x7B800000)

variable {R : Type} [Field R]

/-- The arguments of both functions: `x` of `m` rows, `weight` of `n` rows and `scale`, all row after
row. -/
structure Args (R : Type) where
  m : ℕ
  n : ℕ
  k : ℕ
  x : ℕ → R
  weight : ℕ → E4m3
  scale : ℕ → R

/-- A launch: the tile sizes and the group size the autotuner picks. -/
structure Config where
  blockSizeM : ℕ
  blockSizeN : ℕ
  groupSizeM : ℕ

/-- `BLOCK_SIZE_K`, `group_n` and `group_k`. -/
def blockSizeK : ℕ := 128

variable (args : Args R) (config : Config)

/-- The accumulator of a program at one of its lanes. Masked loads give zero. -/
def accumulator (pidM pidN i j : ℕ) : R :=
  let offsAm := (pidM * config.blockSizeM + i) % args.m
  let offsBn := (pidN * config.blockSizeN + j) % args.n
  let offsBsn := offsBn / 128
  loop (List.range (cdiv args.k blockSizeK)) (fun k acc =>
    let inside (offsK : ℕ) : Prop := offsK < args.k - k * blockSizeK
    let offsKs := k * blockSizeK / 128
    let bS := args.scale (offsBsn * cdiv args.k blockSizeK + offsKs)
    let a (offsK : ℕ) :=
      if inside offsK then args.x (offsAm * args.k + offsK + k * blockSizeK) else 0
    let b (offsK : ℕ) : BitVec 8 :=
      if inside offsK then (args.weight (offsK + offsBn * args.k + k * blockSizeK)).byte else 0
    acc + ∑ offsK ∈ Finset.range blockSizeK,
      a offsK * ((unscaled (b offsK) : R) * (bS * (fp8ToFp32Scale : R)))) 0

/-- `pid_m` and `pid_n`. -/
def programTile (pid : ℕ) : ℕ × ℕ :=
  let numPidM := cdiv args.m config.blockSizeM
  let numPidN := cdiv args.n config.blockSizeN
  let numPidInGroup := config.groupSizeM * numPidN
  let groupId := pid / numPidInGroup
  let firstPidM := groupId * config.groupSizeM
  let groupSizeM := min (numPidM - firstPidM) config.groupSizeM
  (firstPidM + pid % groupSizeM, pid % numPidInGroup / groupSizeM)

/-- The launched grid. -/
def grid : ℕ := cdiv args.m config.blockSizeM * cdiv args.n config.blockSizeN

/-- The stores of a program, as places of `c` with what is stored there. -/
def programStores (pid : ℕ) : List ((ℕ × ℕ) × R) :=
  let (pidM, pidN) := programTile args config pid
  ((List.range config.blockSizeM ×ˢ List.range config.blockSizeN).filter fun p =>
    decide (pidM * config.blockSizeM + p.1 < args.m) &&
      decide (pidN * config.blockSizeN + p.2 < args.n)).map fun p =>
    ((pidM * config.blockSizeM + p.1, pidN * config.blockSizeN + p.2),
      accumulator args config pidM pidN p.1 p.2)

/-- `soft_fp8_blockfp8_gemm_triton`: the stores of the launched grid. -/
def gemmTriton : List ((ℕ × ℕ) × R) :=
  (List.range (grid args config)).flatMap (programStores args config)

/-- `_dequant_fp8_weight_torch`: each weight times the scale of its 128 by 128 block. -/
def dequant (row col : ℕ) : R :=
  (e4m3Value (args.weight (row * args.k + col)).byte : R) *
    args.scale (row / 128 * cdiv args.k 128 + col / 128)

/-- `soft_fp8_blockfp8_gemm_torch`. -/
def gemmTorch (p : ℕ × ℕ) : R :=
  ∑ col ∈ Finset.range args.k, args.x (p.1 * args.k + col) * dequant args p.2 col

section Decode

lemma masked_eq (byte : BitVec 8) :
    ((byte.signExtend 32 <<< 20) &&& BitVec.ofInt 32 (-2014314496)).toNat =
      binary32.pack (byte.toNat / 128) (byte.toNat / 8 % 16) (byte.toNat % 8 * 2 ^ 20) := by
  revert byte
  decide +kernel

lemma scale_eq : fp8ToFp32Scale = 2 ^ (120 : ℤ) := by
  have hdecode : binary32.decode 0x7B800000 = binary32.decode (binary32.pack 0 247 0) := rfl
  unfold fp8ToFp32Scale
  rw [hdecode, Format.decode_pack binary32 (by decide) (by decide) (by decide)]
  norm_num [Format.value, binary32, Format.bias, toRat]

lemma unscaled_mul (byte : BitVec 8) : unscaled byte * fp8ToFp32Scale = e4m3Value byte := by
  have hsign : byte.toNat / 128 < 2 := by omega
  have hexp : byte.toNat / 8 % 16 < 16 := Nat.mod_lt _ (by decide)
  have hfrac : byte.toNat % 8 < 8 := Nat.mod_lt _ (by decide)
  have hvalue : unscaled byte = toRat (binary32.value (decide (byte.toNat / 128 = 1))
      (byte.toNat / 8 % 16) (byte.toNat % 8 * 2 ^ 20)) := by
    unfold unscaled
    simp only
    rw [masked_eq, Format.decode_pack binary32 hsign (by change _ < 256; omega)
      (by change _ < 2 ^ 23; omega)]
  have htop : byte.toNat / 8 % 16 ≠ 2 ^ binary32.expBits - 1 := by
    change _ ≠ 255
    omega
  rw [hvalue, scale_eq]
  unfold e4m3Value Format.value
  rw [if_neg htop]
  generalize byte.toNat / 128 = s
  generalize byte.toNat / 8 % 16 = e
  generalize byte.toNat % 8 = m
  simp only
  have hbias : (binary32.bias : ℤ) = 127 := rfl
  have hbits : (binary32.fracBits : ℤ) = 23 := rfl
  have hhidden : (2 : ℚ) ^ binary32.fracBits = 2 ^ 23 := rfl
  rw [hbias, hbits, hhidden]
  by_cases hzero : e = 0
  · rw [if_pos hzero, if_pos hzero]
    -- The fraction has its place in both, so the biases alone are left.
    have hmag : ((m * 2 ^ 20 : ℕ) : ℚ) * 2 ^ (1 - 127 - 23 : ℤ) * 2 ^ (120 : ℤ) =
        m * 2 ^ (-9 : ℤ) := by
      push_cast
      norm_num
      ring
    by_cases hneg : s = 1
    · simp only [toRat, hneg, decide_true, if_true, neg_mul]
      rw [hmag]
    · simp only [toRat, hneg, decide_false, if_false, Bool.false_eq_true]
      exact hmag
  · rw [if_neg hzero, if_neg hzero]
    have hmag : ((2 : ℚ) ^ 23 + (m * 2 ^ 20 : ℕ)) * 2 ^ (e - 127 - 23 : ℤ) * 2 ^ (120 : ℤ) =
        (8 + m) * 2 ^ (e - 10 : ℤ) := by
      have hexp : (e - 10 : ℤ) = 20 + ((e - 127 - 23 : ℤ) + 120) := by ring
      rw [hexp, zpow_add₀ two_ne_zero, zpow_add₀ two_ne_zero]
      push_cast
      norm_num
      ring
    by_cases hneg : s = 1
    · simp only [toRat, hneg, decide_true, if_true, neg_mul]
      rw [hmag]
    · simp only [toRat, hneg, decide_false, if_false, Bool.false_eq_true]
      exact hmag

end Decode

section Product

variable [CharZero R]

lemma scaled_byte (byte : BitVec 8) (bS : R) :
    (unscaled byte : R) * (bS * (fp8ToFp32Scale : R)) = (e4m3Value byte : R) * bS := by
  rw [← unscaled_mul byte, Rat.cast_mul]
  ring

lemma accumulator_eq {pidM pidN i j : ℕ} (row : pidM * config.blockSizeM + i < args.m)
    (col : pidN * config.blockSizeN + j < args.n) :
    accumulator args config pidM pidN i j =
      gemmTorch args (pidM * config.blockSizeM + i, pidN * config.blockSizeN + j) := by
  unfold accumulator gemmTorch
  simp only [Nat.mod_eq_of_lt row, Nat.mod_eq_of_lt col]
  generalize pidM * config.blockSizeM + i = r
  generalize pidN * config.blockSizeN + j = c
  rw [loop_sum, zero_add, ← sum_tail (show 0 < blockSizeK by decide) args.k]
  change ∑ p ∈ Finset.range (cdiv args.k blockSizeK), _ = _
  refine Finset.sum_congr rfl fun p _ => Finset.sum_congr rfl fun t lt => ?_
  have lane : t < 128 := Finset.mem_range.mp lt
  by_cases inside : t < args.k - p * blockSizeK
  · have block : (p * blockSizeK + t) / 128 = p * blockSizeK / 128 := by
      unfold blockSizeK
      omega
    have address : t + c * args.k + p * blockSizeK = c * args.k + (p * blockSizeK + t) := by ring
    have address' : r * args.k + t + p * blockSizeK = r * args.k + (p * blockSizeK + t) := by ring
    rw [if_pos inside, if_pos inside, if_pos inside, scaled_byte, dequant, block, address, address']
    rfl
  · rw [if_neg inside, if_neg inside, if_neg inside, zero_mul]

lemma programStores_eq (pid : ℕ) :
    programStores args config pid =
      (cells config.blockSizeM args.m (programTile args config pid).1 ×ˢ
        cells config.blockSizeN args.n (programTile args config pid).2).map
          fun p => (p, gemmTorch args p) := by
  rw [← lanes_eq, List.map_map]
  apply List.map_congr_left
  intro p inside
  have bounds := (List.mem_filter.mp inside).2
  rw [Bool.and_eq_true, decide_eq_true_eq, decide_eq_true_eq] at bounds
  rw [accumulator_eq args config bounds.1 bounds.2]
  rfl

/-- The kernel stores every entry of the product once: its programs are those of all tiles. -/
theorem gemm_triton_eq (posM : 0 < config.blockSizeM) (posN : 0 < config.blockSizeN)
    (posG : 0 < config.groupSizeM) (cols : 1 ≤ args.n) :
    Set.BijOn (programTile args config) (Set.Iio (grid args config))
        (Set.Iio (cdiv args.m config.blockSizeM) ×ˢ Set.Iio (cdiv args.n config.blockSizeN)) ∧
      (gemmTriton args config).Perm
        ((List.range args.m ×ˢ List.range args.n).map fun p => (p, gemmTorch args p)) := by
  have posCols : 0 < cdiv args.n config.blockSizeN := Nat.div_pos (by omega) posN
  refine ⟨tile_bijOn posG posCols, ?_⟩
  unfold gemmTriton
  rw [funext (programStores_eq args config), ← List.map_flatMap]
  apply List.Perm.map
  exact cells_swizzled posG posM posN (by omega)

/-- Three rows of tiles in groups of two, so that the last group has one. -/
theorem gemm_triton_eq_short :
    let args : Args ℚ := ⟨5, 3, 130, fun i => i, fun _ => ⟨0x38, by decide⟩, fun _ => 2⟩
    Set.BijOn (programTile args ⟨2, 2, 2⟩) (Set.Iio (grid args ⟨2, 2, 2⟩))
        (Set.Iio (cdiv args.m 2) ×ˢ Set.Iio (cdiv args.n 2)) ∧
      (gemmTriton args ⟨2, 2, 2⟩).Perm
        ((List.range args.m ×ˢ List.range args.n).map fun p => (p, gemmTorch args p)) :=
  gemm_triton_eq _ ⟨2, 2, 2⟩ (by decide) (by decide) (by decide) (by decide)

end Product

end PocketMoE.Kernels.Fp8Gemm
