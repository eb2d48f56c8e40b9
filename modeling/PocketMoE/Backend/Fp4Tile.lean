import Mathlib.Algebra.CharZero.Defs
import Mathlib.Algebra.Field.Basic
import Mathlib.Algebra.Order.Ring.Unbundled.Rat
import Mathlib.Data.Nat.Bitwise
import Mathlib.Tactic.FieldSimp
import PocketMoE.Lib.BlockScale
import PocketMoE.Lib.Bytes
import PocketMoE.Lib.Loop
import PocketMoE.Lib.Numerals

/-!
# The down projection with FP4 weights

`routed_fp4_moe_forward` and `routed_fp4_moe_forward_raw` (`deepseek_cpu_moe_ext.cpp`) multiply by
the same weights: the first reads them in tiles of 64 rows, which
`_pack_fp4_weight_rows_for_tile_decode` (`runtime.py`) has transposed, the second row by row as they
are in the checkpoint. Both leave the product with the weights of `_dequant_fp4_weight_torch`
(`ops.py`).

Tensors are functions from offsets, in row-major order. The arithmetic is exact; a scale byte of 255
is no number in Python and is read as a power of two here as in C++.
-/

namespace PocketMoE.Backend.Fp4Tile
open PocketMoE.Lib

variable {K : Type} [Field K]

/-! ## The values -/

/-- `fp4_code_to_float` -/
def fp4CodeToFloat (code : Nat) : K :=
  [0, 1 / 2, 1, 3 / 2, 2, 3, 4, 6, 0, -(1 / 2), -1, -(3 / 2), -2, -3, -4, -6].getD
    (code &&& 0x0F) 0

/-- `kFp4LutI8x2` -/
def kFp4LutI8x2 : List Int := [0, 1, 2, 3, 4, 6, 8, 12, 0, -1, -2, -3, -4, -6, -8, -12]

/-- A lane of `decode_fp4_nibbles8_to_ps`. -/
def decodeFp4Nibble (nibble : Nat) : K := (kFp4LutI8x2.getD nibble 0 : Int) * (1 / 2)

/-- `fp4_e8m0_scale` -/
def fp4E8m0Scale (scaleByte : Byte) : K := 2 ^ ((scaleByte.val : ℤ) - 127)

/-- `_FP4_LEVELS` -/
def fp4Levels : List K :=
  [0, 1 / 2, 1, 3 / 2, 2, 3, 4, 6, 0, -(1 / 2), -1, -(3 / 2), -2, -3, -4, -6]

/-- An entry of `_unpack_fp4_tensor`. -/
def unpackFp4Tensor (raw : Nat → Byte) (packedK row col : Nat) : K :=
  let byte := (raw (row * packedK + col / 2)).val
  let code := if col % 2 = 0 then byte &&& 0x0F else (byte >>> 4) &&& 0x0F
  fp4Levels.getD code 0

/-- An entry of `_dequant_fp4_weight_torch`; a scale is repeated over the columns of its block. -/
def dequantFp4WeightTorch (raw : Nat → Byte) (scale : Nat → K) (packedK blocks row col : Nat) : K :=
  unpackFp4Tensor raw packedK row col * scale (row * blocks + col / 32)

/-! ## The packer -/

/-- A tensor that is filled tile by tile; the rows that are missing in the last tile stay zero. -/
def packTiles {ι β : Type} (zero : β) (outFeatures tileRows : Nat) (entry : Nat → ι → β) :
    Nat → ι → Nat → β :=
  let numTiles := (outFeatures + tileRows - 1) / tileRows
  loop (List.range numTiles)
    (fun tileIdx packed =>
      let start := tileIdx * tileRows
      let stop := min (start + tileRows) outFeatures
      let rows := stop - start
      fun tile i r => if tile = tileIdx ∧ r < rows then entry (start + r) i else packed tile i r)
    fun _ _ _ => zero

/-- `packed.view(-1)` of a tensor with four dimensions. -/
def flat4 {β : Type} (blocks bytes rows : Nat) (packed : Nat → Nat × Nat → Nat → β) (i : Nat) : β :=
  packed (i / rows / bytes / blocks) (i / rows / bytes % blocks, i / rows % bytes) (i % rows)

/-- `packed_scale.view(-1)` of a tensor with three dimensions. -/
def flat3 {β : Type} (blocks rows : Nat) (packed : Nat → Nat → Nat → β) (i : Nat) : β :=
  packed (i / rows / blocks) (i / rows % blocks) (i % rows)

/-- `_pack_fp4_weight_rows_for_tile_decode`; the view of the weights has blocks of whole bytes. -/
def packFp4WeightRowsForTileDecode (raw : Nat → Byte) (scale : Nat → K)
    (outFeatures packedK tileRows blockSize : Nat) : Option ((Nat → Byte) × (Nat → K)) :=
  let bytesPerBlock := blockSize / 2
  let outBlocks := packedK / bytesPerBlock
  if outBlocks * bytesPerBlock = packedK then
    let packed := packTiles 0 outFeatures tileRows fun row (i : Nat × Nat) =>
      raw ((row * outBlocks + i.1) * bytesPerBlock + i.2)
    let packedScale := packTiles 0 outFeatures tileRows fun row block =>
      scale (row * outBlocks + block)
    some (flat4 outBlocks bytesPerBlock tileRows packed, flat3 outBlocks tileRows packedScale)
  else none

/-! ## The kernels -/

/-- `kW2TileRows` -/
def kW2TileRows : Nat := 64

/-- `kFp4BlockSize` -/
def kFp4BlockSize : Nat := 32

/-- `kFp4BytesPerBlock` -/
def kFp4BytesPerBlock : Nat := kFp4BlockSize / 2

/-- `accs` of `decode_fp4_w2_down_project_tile`. -/
def tileAccs (hidden : Nat → K) (w2Tiled : Nat → Byte) (s2Tiled : Nat → K)
    (outBlocks tStart tEnd : Nat) : Nat → K :=
  let tileIdx := tStart / kW2TileRows
  let tileRowStart := tileIdx * kW2TileRows
  let rows := tEnd - tStart
  let tileW := tileIdx * outBlocks * kFp4BytesPerBlock * kW2TileRows
  let tileS := tileIdx * outBlocks * kW2TileRows
  loop (List.range outBlocks)
    (fun b accs =>
      let featureBase := b * kFp4BlockSize
      let blockW := tileW + b * kFp4BytesPerBlock * kW2TileRows
      let blockS := tileS + b * kW2TileRows
      loop (List.range kFp4BytesPerBlock)
        (fun bb accs =>
          let h0 := hidden (featureBase + bb * 2)
          let h1 := hidden (featureBase + bb * 2 + 1)
          let packedCol := blockW + bb * kW2TileRows
          loop (List.range rows)
            (fun r accs =>
              let tileR := (tStart - tileRowStart) + r
              let packed := (w2Tiled (packedCol + tileR)).val
              let scale := s2Tiled (blockS + tileR)
              Function.update accs r
                (accs r + fp4CodeToFloat (packed &&& 0x0F) * scale * h0 +
                  fp4CodeToFloat ((packed >>> 4) &&& 0x0F) * scale * h1))
            accs)
        accs)
    fun _ => 0

/-- `decode_fp4_w2_down_project_tile` -/
def decodeFp4W2DownProjectTile (hidden : Nat → K) (w2Tiled : Nat → Byte) (s2Tiled : Nat → K)
    (outBlocks tStart tEnd : Nat) (yRow : Nat → K) : Nat → K :=
  let rows := tEnd - tStart
  let accs := tileAccs hidden w2Tiled s2Tiled outBlocks tStart tEnd
  loop (List.range rows)
    (fun r yRow => Function.update yRow (tStart + r) (yRow (tStart + r) + accs r)) yRow

/-- The loop over tiles: each is a step from `t_start` on, in any order. -/
def downProjectTiles (hidden : Nat → K) (w2Tiled : Nat → Byte) (s2Tiled : Nat → K)
    (hiddenDim outBlocks : Nat) (tiles : List Nat) (yRow : Nat → K) : Nat → K :=
  loop tiles
    (fun tile => decodeFp4W2DownProjectTile hidden w2Tiled s2Tiled outBlocks (tile * kW2TileRows)
      (min (tile * kW2TileRows + kW2TileRows) hiddenDim))
    yRow

/-- A byte of `_mm_srli_epi16(raw, 4)`, which shifts numbers of two bytes. -/
def srli4 (raw : Nat → Byte) (i : Nat) : Nat :=
  let word := (raw (i / 2 * 2)).val + 256 * (raw (i / 2 * 2 + 1)).val
  let shifted := word >>> 4
  if i % 2 = 0 then shifted % 256 else shifted / 256

/-- `hsum256_ps` -/
def hsum256 (v : Nat → K) : K :=
  let sum (i : Nat) := v i + v (4 + i)
  (sum 0 + sum 1) + (sum 2 + sum 3)

/-- `acc` of `decode_fp4_w2_down_project_raw`: its lanes for a row. -/
def rawAcc (hidden : Nat → K) (w2 s2 : Nat → Byte) (rowStride outBlocks o : Nat) : Nat → K :=
  let w2Row := o * rowStride
  let s2Row := o * outBlocks
  loop (List.range outBlocks)
    (fun b acc =>
      let scale := fp4E8m0Scale (s2 (s2Row + b))
      let featureBase := b * kFp4BlockSize
      let w2Block := w2Row + b * kFp4BytesPerBlock
      loop (List.range 2)
        (fun chunk acc =>
          let raw (i : Nat) := w2 (w2Block + chunk * 8 + i)
          let hChunk := featureBase + chunk * 16
          fun lane =>
            let wLo := decodeFp4Nibble ((raw lane).val &&& 0x0F) * scale
            let wHi := decodeFp4Nibble (srli4 raw lane &&& 0x0F) * scale
            acc lane + wLo * hidden (hChunk + 2 * lane) + wHi * hidden (hChunk + (2 * lane + 1)))
        acc)
    fun _ => 0

/-- `decode_fp4_w2_down_project_raw` -/
def decodeFp4W2DownProjectRaw (hidden : Nat → K) (w2 s2 : Nat → Byte)
    (interDim outBlocks oStart oEnd : Nat) (yRow : Nat → K) : Nat → K :=
  let rowStride := interDim / 2
  loop (List.range' oStart (oEnd - oStart))
    (fun o yRow =>
      Function.update yRow o (yRow o + hsum256 (rawAcc hidden w2 s2 rowStride outBlocks o)))
    yRow

/-! ## The values agree -/

lemma and_15 (n : Nat) : n &&& 0x0F = n % 16 := Nat.and_two_pow_sub_one_eq_mod n 4

lemma shiftRight_4 (n : Nat) : n >>> 4 = n / 16 := Nat.shiftRight_eq_div_pow n 4

lemma fp4CodeToFloat_and (n : Nat) :
    (fp4CodeToFloat (n &&& 0x0F) : K) = fp4Levels.getD (n &&& 0x0F) 0 := by
  unfold fp4CodeToFloat fp4Levels
  rw [and_15, and_15, Nat.mod_mod]

lemma decodeFp4Nibble_eq [CharZero K] (nibble : Nat) :
    (decodeFp4Nibble nibble : K) = fp4Levels.getD nibble 0 := by
  have levels : kFp4LutI8x2.map (fun n : Int => (n : K) * (1 / 2)) = fp4Levels := by
    simp only [kFp4LutI8x2, fp4Levels, List.map_cons, List.map_nil]
    norm_num
  have zero : ((0 : Int) : K) * (1 / 2) = 0 := by rw [Int.cast_zero, zero_mul]
  rw [← levels, ← zero, List.getD_map]
  rfl

lemma srli4_and (raw : Nat → Byte) (i : Nat) :
    srli4 raw i &&& 0x0F = ((raw i).val >>> 4) &&& 0x0F := by
  unfold srli4
  dsimp only
  rw [and_15, and_15, shiftRight_4, shiftRight_4]
  have low := (raw (i / 2 * 2)).isLt
  have high := (raw (i / 2 * 2 + 1)).isLt
  split_ifs with even
  · have here : i / 2 * 2 = i := by omega
    rw [here] at low ⊢
    omega
  · have here : i / 2 * 2 + 1 = i := by omega
    rw [here] at high ⊢
    omega

/-- The weights of a byte of a row, times the activations. -/
def byteTerm (hidden : Nat → K) (byte : Byte) (scale : K) (col : Nat) : K :=
  (fp4Levels : List K).getD (byte.val &&& 0x0F) 0 * scale * hidden col +
    (fp4Levels : List K).getD ((byte.val >>> 4) &&& 0x0F) 0 * scale * hidden (col + 1)

lemma sum_dequant (hidden : Nat → K) (raw : Nat → Byte) (scale : Nat → K) (blocks o : Nat) :
    ∑ k ∈ Finset.range (blocks * 32),
      dequantFp4WeightTorch raw scale (blocks * 16) blocks o k * hidden k =
    ∑ b ∈ Finset.range blocks, ∑ i ∈ Finset.range 16,
      byteTerm hidden (raw ((o * blocks + b) * 16 + i)) (scale (o * blocks + b))
        (b * 32 + i * 2) := by
  rw [← sum_parts]
  refine Finset.sum_congr rfl fun b _ => ?_
  have halves := sum_parts (fun j => dequantFp4WeightTorch raw scale (blocks * 16) blocks o
    (b * 32 + j) * hidden (b * 32 + j)) 16 2
  refine halves.symm.trans (Finset.sum_congr rfl fun i member => ?_)
  have inside := Finset.mem_range.mp member
  have place : o * (blocks * 16) + (b * 32 + i * 2) / 2 = (o * blocks + b) * 16 + i := by
    rw [← Nat.mul_assoc]
    omega
  have place' : o * (blocks * 16) + (b * 32 + (i * 2 + 1)) / 2 = (o * blocks + b) * 16 + i := by
    rw [← Nat.mul_assoc]
    omega
  have block : (b * 32 + i * 2) / 32 = b := by omega
  have block' : (b * 32 + (i * 2 + 1)) / 32 = b := by omega
  have even : (b * 32 + i * 2) % 2 = 0 := by omega
  have odd : ¬ (b * 32 + (i * 2 + 1)) % 2 = 0 := by omega
  rw [Finset.sum_range_succ, Finset.sum_range_one, Nat.add_zero, dequantFp4WeightTorch,
    dequantFp4WeightTorch, unpackFp4Tensor, unpackFp4Tensor, place, place', block, block',
    if_pos even, if_neg odd]
  rfl

/-! ## The rows of the kernels -/

/-- Both kernels leave the sum over the bytes of a row, with the bytes and the scales that they read
for it. -/
def rowSum (hidden : Nat → K) (byte : Nat → Nat → Byte) (scale : Nat → K) (outBlocks : Nat) : K :=
  ∑ b ∈ Finset.range outBlocks, ∑ i ∈ Finset.range 16,
    byteTerm hidden (byte b i) (scale b) (b * 32 + i * 2)

lemma hsum256_eq (v : Nat → K) : hsum256 v = ∑ lane ∈ Finset.range 8, v lane := by
  simp only [hsum256, Finset.sum_range_succ, Finset.sum_range_zero]
  ring

lemma raw_row [CharZero K] (hidden : Nat → K) (w2 s2 : Nat → Byte) (rowStride outBlocks o : Nat) :
    hsum256 (rawAcc hidden w2 s2 rowStride outBlocks o) =
      rowSum hidden (fun b i => w2 (o * rowStride + b * 16 + i))
        (fun b => fp4E8m0Scale (s2 (o * outBlocks + b))) outBlocks := by
  let term (b i : Nat) : K :=
    byteTerm hidden (w2 (o * rowStride + b * 16 + i)) (fp4E8m0Scale (s2 (o * outBlocks + b)))
      (b * 32 + i * 2)
  have lanes (lane : Nat) : rawAcc hidden w2 s2 rowStride outBlocks o lane =
      ∑ b ∈ Finset.range outBlocks, ∑ chunk ∈ Finset.range 2, term b (chunk * 8 + lane) := by
    refine (loop_range_sum (fun acc : Nat → K => acc lane) _ _ (fun b _ acc => ?_) _).trans
      (zero_add _)
    refine loop_range_sum (fun acc : Nat → K => acc lane) _ _ (fun chunk _ acc => ?_) acc
    have place : b * kFp4BlockSize + chunk * 16 + 2 * lane = b * 32 + (chunk * 8 + lane) * 2 := by
      unfold kFp4BlockSize
      omega
    have place' : b * kFp4BlockSize + chunk * 16 + (2 * lane + 1) =
        b * 32 + (chunk * 8 + lane) * 2 + 1 := by
      unfold kFp4BlockSize
      omega
    have byte : o * rowStride + b * kFp4BytesPerBlock + chunk * 8 + lane =
        o * rowStride + b * 16 + (chunk * 8 + lane) := Nat.add_assoc ..
    dsimp only
    rw [srli4_and, decodeFp4Nibble_eq, decodeFp4Nibble_eq, place, place', byte, add_assoc]
    rfl
  rw [hsum256_eq, Finset.sum_congr rfl fun lane _ => lanes lane, Finset.sum_comm]
  refine Finset.sum_congr rfl fun b _ => ?_
  rw [Finset.sum_comm]
  exact sum_parts (term b) 2 8

lemma tile_row (hidden : Nat → K) (w2Tiled : Nat → Byte) (s2Tiled : Nat → K)
    {outBlocks tStart tEnd r : Nat} (inside : r < tEnd - tStart) :
    tileAccs hidden w2Tiled s2Tiled outBlocks tStart tEnd r =
      rowSum hidden
        (fun b i => w2Tiled (((tStart / 64 * outBlocks + b) * 16 + i) * 64 + (tStart % 64 + r)))
        (fun b => s2Tiled ((tStart / 64 * outBlocks + b) * 64 + (tStart % 64 + r))) outBlocks := by
  have row : tStart - tStart / 64 * 64 + r = tStart % 64 + r := by omega
  refine (loop_range_sum (fun accs : Nat → K => accs r) _ _ (fun b _ accs => ?_) _).trans
    (zero_add _)
  refine loop_range_sum (fun accs : Nat → K => accs r) _ _ (fun i _ accs => ?_) accs
  have byte : tStart / 64 * outBlocks * 16 * 64 + b * 16 * 64 + i * 64 + (tStart % 64 + r) =
      ((tStart / 64 * outBlocks + b) * 16 + i) * 64 + (tStart % 64 + r) := by ring
  have scale : tStart / 64 * outBlocks * 64 + b * 64 + (tStart % 64 + r) =
      (tStart / 64 * outBlocks + b) * 64 + (tStart % 64 + r) := by ring
  refine loop_part (fun accs : Nat → K => accs r) (fun v => v + _) _ (fun accs => ?_)
    (fun j _ other accs => Function.update_of_ne (Ne.symm other) ..) List.nodup_range
    (List.mem_range.mpr inside) accs
  dsimp only
  unfold kW2TileRows kFp4BytesPerBlock kFp4BlockSize
  rw [Function.update_self, row, byte, scale, fp4CodeToFloat_and, fp4CodeToFloat_and, add_assoc]
  rfl

/-! ## The packed weights -/

lemma packTiles_at {ι β : Type} (zero : β) (entry : Nat → ι → β) {outFeatures tileRows tile r : Nat}
    (small : r < tileRows) (inside : tile * tileRows + r < outFeatures) (i : ι) :
    packTiles zero outFeatures tileRows entry tile i r = entry (tile * tileRows + r) i := by
  have positive : 0 < tileRows := by omega
  have member : tile < (outFeatures + tileRows - 1) / tileRows := by
    rw [Nat.lt_div_iff_mul_lt positive]
    omega
  refine loop_part (fun packed : Nat → ι → Nat → β => packed tile i r)
    (fun _ => entry (tile * tileRows + r) i) _ (fun packed => ?_) (fun other _ ne packed => ?_)
    List.nodup_range (List.mem_range.mpr member) _
  · exact if_pos ⟨rfl, by omega⟩
  · exact if_neg fun here => ne here.1.symm

lemma offset_parts (x : Nat) {n k : Nat} (lt : k < n) :
    (x * n + k) / n = x ∧ (x * n + k) % n = k := by
  have positive : 0 < n := by omega
  rw [Nat.mul_comm, Nat.mul_add_div positive, Nat.div_eq_of_lt lt, Nat.mul_add_mod,
    Nat.mod_eq_of_lt lt]
  exact ⟨rfl, rfl⟩

lemma flat4_at {β : Type} (packed : Nat → Nat × Nat → Nat → β) {blocks bytes rows b i r : Nat}
    (tile : Nat) (block : b < blocks) (byte : i < bytes) (row : r < rows) :
    flat4 blocks bytes rows packed (((tile * blocks + b) * bytes + i) * rows + r) =
      packed tile (b, i) r := by
  unfold flat4
  rw [(offset_parts _ row).1, (offset_parts _ row).2, (offset_parts _ byte).1,
    (offset_parts _ byte).2, (offset_parts _ block).1, (offset_parts _ block).2]

lemma flat3_at {β : Type} (packed : Nat → Nat → Nat → β) {blocks rows b r : Nat} (tile : Nat)
    (block : b < blocks) (row : r < rows) :
    flat3 blocks rows packed ((tile * blocks + b) * rows + r) = packed tile b r := by
  unfold flat3
  rw [(offset_parts _ row).1, (offset_parts _ row).2, (offset_parts _ block).1,
    (offset_parts _ block).2]

/-! ## The projections -/

lemma add_rows (start rows : Nat) (term : Nat → K) (y : Nat → K) (o : Nat) :
    loop (List.range rows) (fun r y => Function.update y (start + r) (y (start + r) + term r)) y o =
      y o + if start ≤ o ∧ o < start + rows then term (o - start) else 0 := by
  rw [loop_range_sum (fun y : Nat → K => y o) (fun r => if r + start = o then term r else 0) _
    (fun r _ y => ?_) y]
  · congr 1
    split_ifs with here
    · have place (r : Nat) : r + start = o ↔ r = o - start := by omega
      simp only [place]
      rw [Finset.sum_ite_eq', if_pos (Finset.mem_range.mpr (by omega))]
    · refine Finset.sum_eq_zero fun r member => if_neg fun same => here ?_
      have := Finset.mem_range.mp member
      omega
  · rw [Function.update_apply, Nat.add_comm r]
    by_cases here : o = start + r
    · rw [if_pos here, if_pos here.symm, here]
    · rw [if_neg here, if_neg (Ne.symm here), add_zero]

lemma raw_at [CharZero K] (hidden : Nat → K) (w2 s2 : Nat → Byte) (interDim outBlocks oEnd : Nat)
    (y : Nat → K) (o : Nat) :
    decodeFp4W2DownProjectRaw hidden w2 s2 interDim outBlocks 0 oEnd y o =
      if o < oEnd then y o + rowSum hidden (fun b i => w2 (o * (interDim / 2) + b * 16 + i))
        (fun b => fp4E8m0Scale (s2 (o * outBlocks + b))) outBlocks
      else y o := by
  have rows := add_rows 0 oEnd
    (fun o => hsum256 (rawAcc hidden w2 s2 (interDim / 2) outBlocks o)) y o
  simp only [Nat.zero_add, Nat.sub_zero, Nat.zero_le, true_and] at rows
  unfold decodeFp4W2DownProjectRaw
  rw [Nat.sub_zero, ← List.range_eq_range', rows, raw_row]
  split_ifs
  · rfl
  · exact add_zero _

section Tiles

variable {raw : Nat → Byte} {scale : Nat → K} {hiddenDim blocks : Nat} {w2Tiled : Nat → Byte}
variable {s2Tiled : Nat → K}

lemma packed_row (hidden : Nat → K) (packed : packFp4WeightRowsForTileDecode raw scale hiddenDim
    (blocks * 16) 64 32 = some (w2Tiled, s2Tiled)) {tile r : Nat} (small : r < 64)
    (inside : tile * 64 + r < hiddenDim) :
    rowSum hidden (fun b i => w2Tiled (((tile * blocks + b) * 16 + i) * 64 + r))
        (fun b => s2Tiled ((tile * blocks + b) * 64 + r)) blocks =
      rowSum hidden (fun b i => raw (((tile * 64 + r) * blocks + b) * 16 + i))
        (fun b => scale ((tile * 64 + r) * blocks + b)) blocks := by
  have bytes : 32 / 2 = 16 := rfl
  have whole : blocks * 16 / 16 = blocks := Nat.mul_div_cancel _ (by decide)
  unfold packFp4WeightRowsForTileDecode at packed
  simp only [bytes, whole, if_true, Option.some.injEq, Prod.mk.injEq] at packed
  obtain ⟨rfl, rfl⟩ := packed
  refine Finset.sum_congr rfl fun b member => Finset.sum_congr rfl fun i member' => ?_
  have block := Finset.mem_range.mp member
  have byte := Finset.mem_range.mp member'
  dsimp only
  rw [flat4_at _ _ block byte small, flat3_at _ _ block small, packTiles_at _ _ small inside,
    packTiles_at _ _ small inside]

lemma tile_at (hidden : Nat → K) (packed : packFp4WeightRowsForTileDecode raw scale hiddenDim
    (blocks * 16) 64 32 = some (w2Tiled, s2Tiled)) {tile : Nat} (some_ : tile * 64 < hiddenDim)
    (y : Nat → K) (o : Nat) :
    decodeFp4W2DownProjectTile hidden w2Tiled s2Tiled blocks (tile * kW2TileRows)
        (min (tile * kW2TileRows + kW2TileRows) hiddenDim) y o =
      y o + if o < hiddenDim ∧ o / 64 = tile then
        rowSum hidden (fun b i => raw ((o * blocks + b) * 16 + i))
          (fun b => scale (o * blocks + b)) blocks
      else 0 := by
  unfold kW2TileRows
  refine (add_rows ..).trans (congrArg (y o + ·) ?_)
  by_cases here : o < hiddenDim ∧ o / 64 = tile
  · obtain ⟨inside, rfl⟩ := here
    have within : o / 64 * 64 ≤ o ∧
        o < o / 64 * 64 + (min (o / 64 * 64 + 64) hiddenDim - o / 64 * 64) := by omega
    have row : o - o / 64 * 64 < min (o / 64 * 64 + 64) hiddenDim - o / 64 * 64 := by omega
    have first : o / 64 * 64 / 64 = o / 64 := Nat.mul_div_cancel _ (by decide)
    have zero : o / 64 * 64 % 64 = 0 := Nat.mul_mod_left ..
    have place : o / 64 * 64 + (o - o / 64 * 64) = o := by omega
    rw [if_pos within, if_pos ⟨inside, rfl⟩, tile_row hidden w2Tiled s2Tiled row, first, zero]
    simp only [Nat.zero_add]
    rw [packed_row hidden packed (by omega) (by omega), place]
  · have without : ¬ (tile * 64 ≤ o ∧
        o < tile * 64 + (min (tile * 64 + 64) hiddenDim - tile * 64)) := by omega
    rw [if_neg without, if_neg here]

lemma tiles_at (hidden : Nat → K) (packed : packFp4WeightRowsForTileDecode raw scale hiddenDim
    (blocks * 16) 64 32 = some (w2Tiled, s2Tiled)) {tiles : List Nat} (distinct : tiles.Nodup)
    (inside : ∀ tile ∈ tiles, tile * 64 < hiddenDim) (y : Nat → K) (o : Nat) :
    downProjectTiles hidden w2Tiled s2Tiled hiddenDim blocks tiles y o =
      if o < hiddenDim ∧ o / 64 ∈ tiles then
        y o + rowSum hidden (fun b i => raw ((o * blocks + b) * 16 + i))
          (fun b => scale (o * blocks + b)) blocks
      else y o := by
  induction tiles generalizing y with
  | nil => exact (if_neg fun h => List.not_mem_nil h.2).symm
  | cons tile tiles ih =>
    obtain ⟨new, distinct⟩ := List.nodup_cons.mp distinct
    obtain ⟨here, inside⟩ := List.forall_mem_cons.mp inside
    refine (ih distinct inside _).trans ?_
    dsimp only
    rw [tile_at hidden packed here]
    by_cases mine : o < hiddenDim ∧ o / 64 = tile
    · have done : ¬ (o < hiddenDim ∧ o / 64 ∈ tiles) := fun later => new (mine.2 ▸ later.2)
      rw [if_neg done, if_pos mine, if_pos ⟨mine.1, List.mem_cons.mpr (.inl mine.2)⟩]
    · have same : o < hiddenDim ∧ o / 64 ∈ tile :: tiles ↔ o < hiddenDim ∧ o / 64 ∈ tiles :=
        and_congr_right fun low => List.mem_cons.trans <| or_iff_right fun is => mine ⟨low, is⟩
      rw [if_neg mine, add_zero, if_congr same rfl rfl]

end Tiles

/-- The tiles of any part of the loop, in any order, have the rows of the plain kernel, which are
the products with the dequantised weights; no other output is changed. -/
theorem tiles_eq_raw [CharZero K] (hidden : Nat → K) (w2 s2 : Nat → Byte) (hiddenDim : Nat)
    {interDim : Nat} (whole : 32 ∣ interDim) {tiles : List Nat} (distinct : tiles.Nodup)
    (inside : ∀ tile ∈ tiles, tile * kW2TileRows < hiddenDim) (y : Nat → K) :
    let scale := fun i => (fp4E8m0Scale (s2 i) : K)
    let blocks := interDim / kFp4BlockSize
    let all := decodeFp4W2DownProjectRaw hidden w2 s2 interDim blocks 0 hiddenDim y
    (∃ w2Tiled s2Tiled, packFp4WeightRowsForTileDecode w2 scale hiddenDim (interDim / 2)
        kW2TileRows kFp4BlockSize = some (w2Tiled, s2Tiled) ∧
      ∀ o, downProjectTiles hidden w2Tiled s2Tiled hiddenDim blocks tiles y o =
        if o < hiddenDim ∧ o / kW2TileRows ∈ tiles then all o else y o) ∧
    ∀ o, all o = if o < hiddenDim then y o + ∑ k ∈ Finset.range interDim,
        dequantFp4WeightTorch w2 scale (interDim / 2) blocks o k * hidden k
      else y o := by
  obtain ⟨blocks, rfl⟩ := whole
  have half : 32 * blocks / 2 = blocks * 16 := by omega
  have count : 32 * blocks / kFp4BlockSize = blocks := Nat.mul_div_cancel_left _ (by decide)
  have place (o b : Nat) : o * (blocks * 16) + b * 16 = (o * blocks + b) * 16 := by ring
  have rows := raw_at hidden w2 s2 (32 * blocks) blocks hiddenDim y
  simp only [half, place] at rows
  rw [count, half]
  refine ⟨?_, fun o => ?_⟩
  · have bytes : blocks * 16 / (kFp4BlockSize / 2) * (kFp4BlockSize / 2) = blocks * 16 :=
      congrArg (· * 16) (Nat.mul_div_cancel _ (by decide))
    obtain ⟨⟨w2Tiled, s2Tiled⟩, packed⟩ : ∃ tiled, packFp4WeightRowsForTileDecode w2
        (fun i => (fp4E8m0Scale (s2 i) : K)) hiddenDim (blocks * 16) kW2TileRows kFp4BlockSize =
          some tiled := ⟨_, if_pos bytes⟩
    refine ⟨w2Tiled, s2Tiled, packed, fun o =>
      (tiles_at hidden packed distinct inside y o).trans ?_⟩
    unfold kW2TileRows
    split_ifs with run
    · rw [rows o, if_pos run.1]
    · rfl
  · rw [rows o, Nat.mul_comm 32, sum_dequant]
    rfl

/-- Seventy rows are two tiles, of which the second has six. -/
theorem tiles_eq_raw_seventy :
    let w2 : Nat → Byte := fun i => if i < 16 then 0x21 else 0xf7
    let s2 : Nat → Byte := fun _ => 126
    ∃ w2Tiled s2Tiled, packFp4WeightRowsForTileDecode w2 (fun i => (fp4E8m0Scale (s2 i) : ℚ)) 70 16
        64 32 = some (w2Tiled, s2Tiled) ∧
      ∀ o, downProjectTiles (fun k => (k : ℚ)) w2Tiled s2Tiled 70 1 [1, 0] (fun _ => 5) o =
        if o < 70 ∧ o / 64 ∈ [1, 0] then
          decodeFp4W2DownProjectRaw (fun k => (k : ℚ)) w2 s2 32 1 0 70 (fun _ => 5) o
        else 5 :=
  (tiles_eq_raw (fun k => (k : ℚ)) _ _ 70 (Nat.dvd_refl 32) (by decide) (by decide) fun _ => 5).1

end PocketMoE.Backend.Fp4Tile
