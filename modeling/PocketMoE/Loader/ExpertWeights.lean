import Mathlib.Algebra.Field.Rat
import PocketMoE.Lib.Numerals
import PocketMoE.Loader.GridBlocks

/-!
# The weights of quantised blocks

The numbers that `_read_q2_k_rows`, `_read_iq2_xxs_rows` and `_read_iq1_m_rows` of
`tensor_reader.py` make of what they read of a block, with exact arithmetic. The values of
half-precision numbers and the two codebooks are parameters (`Codebooks`).
-/

namespace PocketMoE.Loader.Python
open PocketMoE.Lib

variable {K : Type} [Field K]

/-- What a decoder looks up: numbers by their 16 bits, `iq1_grid_i8` row after row, and
`_IQ2XXS_GRID`. -/
structure Codebooks (K : Type) where
  half : ℕ → K
  iq1Grid : ℕ → BitVec 8
  iq2xxsGrid : ℕ → ℕ

namespace Codebooks

variable (c : Codebooks K)

/-- A value of `_read_q2_k_rows`. -/
def q2KWeight (block : ℕ → Byte) (i : ℕ) : K :=
  let b := readQ2K block
  let v := b.values.getD i ⟨0, 0, 0⟩
  c.half b.d * v.scale * v.quant - c.half b.dmin * v.min

/-- A number of `_iq2xxs_signed_grid`: a byte of a row, as `int8`, with a sign. -/
def signedByte (idx lane : ℕ) (negative : Bool) : ℤ :=
  let base := (BitVec.ofNat 8 (c.iq2xxsGrid idx >>> (8 * lane))).toInt
  (BitVec.ofInt 8 (base * if negative then -1 else 1)).toInt

/-- A value of `_read_iq2_xxs_rows`. -/
def iq2XxsWeight (block : ℕ → Byte) (i : ℕ) : K :=
  let b := readIq2Xxs block
  let v := b.values.getD i ⟨0, 0, false⟩
  1 / 8 * c.half b.d * v.scale * (c.signedByte v.grid (i % 8) v.negative : ℤ)

/-- A value of `_read_iq1_m_rows`. -/
def iq1MWeight (block : ℕ → Byte) (i : ℕ) : K :=
  let b := readIq1M block
  let v := b.values.getD i ⟨0, 0, false⟩
  let delta : K := if v.negative then -1 / 8 else 1 / 8
  c.half b.d * v.scale * (((c.iq1Grid (v.grid * 8 + i % 8)).toInt : ℤ) + delta)

end Codebooks

/-- An entry of the rows that a decoder makes of blocks of some bytes. -/
def rowsOf (bytes : ℕ) (weight : (ℕ → Byte) → ℕ → K) (data : ℕ → Byte) (blocksPerRow row k : ℕ) :
    K :=
  weight (bytesFrom data ((row * blocksPerRow + k / 256) * bytes)) (k % 256)

lemma getD_map_range {α : Type} {n i : ℕ} (lt : i < n) (f : ℕ → α) (default : α) :
    ((List.range n).map f).getD i default = f i := by
  rw [List.getD_eq_getElem?_getD, List.getElem?_map, List.getElem?_range lt]
  rfl

variable {c : Codebooks K}

lemma q2KWeight_eq (block : ℕ → Byte) {i : ℕ} (lt : i < 256) :
    c.q2KWeight block i =
      let scales := (block (i / 16)).val
      let byte := (block (16 + (i / 128 * 32 + i / 16 % 2 * 16 + i % 16))).val
      c.half (f16Bits block 80) * (scales &&& 0x0F : ℕ) *
          (byte >>> (i / 16 % 8 / 2 * 2) &&& 0x03 : ℕ) -
        c.half (f16Bits block 82) * (scales >>> 4 : ℕ) := by
  have group : i / 16 / 8 = i / 128 := Nat.div_div_eq_div_mul i 16 8
  have odd : i / 16 % 8 % 2 = i / 16 % 2 := by omega
  unfold Codebooks.q2KWeight readQ2K
  dsimp only
  rw [flatMap_range 16 (by decide), getD_map_range lt]
  dsimp only [bytesFrom]
  rw [group, odd, Nat.zero_add]

lemma iq2XxsWeight_eq (block : ℕ → Byte) {i : ℕ} (lt : i < 256) :
    c.iq2XxsWeight block i =
      let chunk (t : ℕ) := (block (2 + (i / 32 * 8 + t))).val
      let aux1 := chunk 4 ||| chunk 5 <<< 8 ||| chunk 6 <<< 16 ||| chunk 7 <<< 24
      (1 / 8 : K) * c.half (f16Bits block 0) * (2 * (aux1 >>> 28) + 1 : ℕ) *
        (c.signedByte (chunk (i / 8 % 4)) (i % 8)
          (signedGridNegative (aux1 >>> (7 * (i / 8 % 4)) &&& 127) (i % 8)) : ℤ) := by
  have part : i % 32 / 8 = i / 8 % 4 := by omega
  have lane : i % 32 % 8 = i % 8 := by omega
  unfold Codebooks.iq2XxsWeight readIq2Xxs
  dsimp only
  simp only [flatMap_range _ (by decide : 0 < 8), Nat.reduceMul]
  rw [flatMap_range 8 (by decide), getD_map_range lt]
  dsimp only [bytesFrom]
  rw [part, lane]

lemma iq1MWeight_eq (block : ℕ → Byte) {i : ℕ} (lt : i < 256) :
    c.iq1MWeight block i =
      let sc (w : ℕ) := leWord block (48 + 2 * w) 2
      let d := (sc 0 &&& 0xF000) >>> 12 ||| (sc 1 &&& 0xF000) >>> 8 |||
        (sc 2 &&& 0xF000) >>> 4 ||| (sc 3 &&& 0xF000) >>> 0
      let qh := (block (32 + i / 8 / 2)).val >>> (4 * (i / 8 % 2))
      let delta : K := if qh &&& 0x08 ≠ 0 then -1 / 8 else 1 / 8
      c.half d * (2 * (sc (i / 16 / 4) >>> (3 * (i / 16 % 4)) &&& 0x07) + 1 : ℕ) *
        (((c.iq1Grid (((block (i / 8)).val ||| (qh &&& 0x07) <<< 8) * 8 + i % 8)).toInt : ℤ) +
          delta) := by
  unfold Codebooks.iq1MWeight readIq1M
  dsimp only
  rw [getD_map_range lt]
  dsimp only [bytesFrom]
  rw [Nat.zero_add]
  exact congrArg _ (congrArg _ (if_congr decide_eq_true_iff rfl rfl))

end PocketMoE.Loader.Python
