import PocketMoE.Engine.MoeTiles
import PocketMoE.Lib.ByteLanes
import PocketMoE.Lib.Rounding
import PocketMoE.Loader.ExpertWeights

/-!
# Products with the rows of GGUF experts

What the kernels of `iq1_ops.cu` and `q2_ops.cu` add up for a row of numbers and a row of blocks:
the lanes of a warp for numbers as they are or quantised, and tensor-core tiles. Arithmetic is
exact; the values of half-precision numbers and the codebooks are parameters.
-/

namespace PocketMoE.Engine.GgufMoe

open PocketMoE.Lib PocketMoE.Loader.Python

variable {K : Type} [Field K] [LinearOrder K] [IsStrictOrderedRing K] [FloorRing K]

/-! ## Quantised rows -/

/-- A row of signed bytes, and the scales of its groups. -/
structure Q8 (K : Type) where
  codes : ℕ → BitVec 8
  scales : ℕ → K

/-- The scale of a group of 16 or 32 numbers. -/
def groupScale (size : ℕ) (x : ℕ → K) : K :=
  let maxv := warpDown max 32 (size / 2) (fun lane => |x lane|) 0
  if 0 < maxv then maxv / 127 else 1 / 10 ^ 8

/-- `gguf_q8_1_quantize_x_32_kernel` and `gguf_q8_1_quantize_hidden_16_kernel` on a row. -/
def quantizeQ8 (size : ℕ) (x : ℕ → K) : Q8 K where
  codes k :=
    let q := halfEven (x k / groupScale size fun lane => x (k / size * size + lane))
    BitVec.ofInt 8 (max (-127) (min 127 q))
  scales group := groupScale size fun lane => x (group * size + lane)

/-- `iq1_quantize_route_rows_q8_16_kernel` on a row, which is not there for a token below 0. -/
def iq1QuantizeRouteRow (token : ℤ) (x : ℕ → K) : Q8 K :=
  let q := quantizeQ8 16 fun k => if 0 ≤ token then x k else 0
  { q with codes := fun k => if 0 ≤ token then q.codes k else 0 }

/-! ## Rows of IQ1_M -/

/-- `iq1m_super_scale` -/
def iq1mSuperScale (books : Codebooks K) (sc : ℕ → ℕ) : K :=
  books.half ((sc 0 &&& 0xF000) >>> 12 ||| (sc 1 &&& 0xF000) >>> 8 ||| (sc 2 &&& 0xF000) >>> 4 |||
    sc 3 &&& 0xF000)

/-- What a lane of `iq1m_block_dot_256` and `iq1m_block_dot_q8_256` takes from a block. -/
structure Iq1Lane (K : Type) where
  dl : K
  qidx : ℕ
  delta : K
  s : ℕ
  kOut : ℕ

def iq1Lane (books : Codebooks K) (block : ℕ → Byte) (j : ℕ) : Iq1Lane K :=
  let qs := bytesFrom block 0
  let qh := bytesFrom block 32
  let sc (w : ℕ) := leWord block (48 + 2 * w) 2
  let sub := j >>> 2
  let half := j >>> 1 &&& 1
  let pair := j &&& 1
  let s := sub * 2 + half
  let localScale := sc (s >>> 2) >>> ((s &&& 3) * 3) &&& 0x07
  let qhv := (qh (j >>> 1)).val >>> ((j &&& 1) * 4) &&& 0x0F
  { dl := iq1mSuperScale books sc * (2 * localScale + 1 : ℕ)
    qidx := (qs j).val ||| (qhv &&& 0x07) <<< 8
    delta := if qhv &&& 0x08 ≠ 0 then -1 / 8 else 1 / 8
    s
    kOut := sub * 32 + half * 16 + pair * 8 }

/-- `iq1m_block_dot_256` -/
def iq1mBlockDot256 (books : Codebooks K) (xShared : ℕ → K) (block : ℕ → Byte) : K :=
  warpDown (· + ·) 32 16 (fun lane =>
    let l := iq1Lane books block lane
    l.dl * loop (List.range 8) (fun g partial_ => partial_ + xShared (l.kOut + g) *
      (((books.iq1Grid (l.qidx * 8 + g)).toInt : ℤ) + l.delta)) 0) 0

/-- `iq1m_block_dot_q8_256` -/
def iq1mBlockDotQ8 (books : Codebooks K) (xq : ℕ → BitVec 8) (xs : ℕ → K) (block : ℕ → Byte) : K :=
  warpDown (· + ·) 32 16 (fun lane =>
    let l := iq1Lane books block lane
    let h (i : ℕ) := pack4 fun j => xq (l.kOut + (4 * i + j))
    let g (i : ℕ) := pack4 fun j => books.iq1Grid (l.qidx * 8 + (4 * i + j))
    let dot := dp4a (h 0) (g 0) 0 + dp4a (h 1) (g 1) 0
    let sumH := dp4a (h 0) 0x01010101#32 0 + dp4a (h 1) 0x01010101#32 0
    l.dl * xs l.s * ((dot : ℤ) + l.delta * (sumH : ℤ))) 0

/-- What a warp of the float kernels adds up for a row, block after block. -/
def iq1RowDot (books : Codebooks K) (x : ℕ → K) (blocks : ℕ → Byte) (width row : ℕ) : K :=
  let blocksPerRow := cdiv width 256
  loop (List.range blocksPerRow) (fun blockIdx acc =>
    let kBase := blockIdx * 256
    let xShared (k : ℕ) := if kBase + k < width then x (kBase + k) else 0
    acc + iq1mBlockDot256 books xShared
      (bytesFrom blocks (row * blocksPerRow * 56 + blockIdx * 56))) 0

/-- The same for quantised numbers. -/
def iq1RowDotQ8 (books : Codebooks K) (x : Q8 K) (blocks : ℕ → Byte) (width row : ℕ) : K :=
  let blocksPerRow := cdiv width 256
  let groups := cdiv width 16
  loop (List.range blocksPerRow) (fun blockIdx acc =>
    let kBase := blockIdx * 256
    let hq (k : ℕ) := if kBase + k < width then x.codes (kBase + k) else 0
    let hs (g : ℕ) := if blockIdx * 16 + g < groups then x.scales (blockIdx * 16 + g) else 0
    acc + iq1mBlockDotQ8 books hq hs (bytesFrom blocks (row * blocksPerRow * 56 + blockIdx * 56))) 0

/-! ## Rows of IQ2_XXS and Q2_K -/

/-- `build_signed_grid_host` -/
def buildSignedGridHost (books : Codebooks K) (i : ℕ) : BitVec 8 :=
  let gridId := i / 8 / 128
  let signIdx := i / 8 % 128
  let b := i % 8
  let base := BitVec.ofNat 8 (books.iq2xxsGrid gridId >>> (8 * b) &&& 0xff)
  let signMask := signIdx ||| (bitCount signIdx &&& 1) <<< 7
  let sign : ℤ := if signMask >>> b &&& 1 ≠ 0 then -1 else 1
  BitVec.ofInt 8 (base.toInt * sign)

/-- What a lane of the IQ2_XXS kernels has for a block: its products with the quantised numbers. -/
def iq2Lane (books : Codebooks K) (xq : ℕ → BitVec 8) (xs : ℕ → K) (block : ℕ → Byte)
    (lane : ℕ) : K :=
  let sub := lane >>> 2
  let part := lane &&& 3
  let chunk (t : ℕ) := (block (2 + (sub * 8 + t))).val
  let aux := chunk 4 ||| chunk 5 <<< 8 ||| chunk 6 <<< 16 ||| chunk 7 <<< 24
  let gridId := chunk part
  let signIdx := aux >>> (7 * part) &&& 127
  let s := 1 / 8 * books.half (f16Bits block 0) * (2 * (aux >>> 28) + 1 : ℕ)
  let vals (p : ℕ) := pack4 fun j =>
    buildSignedGridHost books ((gridId * 128 + signIdx) * 8 + (4 * p + j))
  let xqBase := sub * 8 + part * 2
  let xWord (p : ℕ) := pack4 fun j => xq (4 * (xqBase + p) + j)
  let sumi := dp4a (vals 1) (xWord 1) (dp4a (vals 0) (xWord 0) 0)
  s * xs sub * (sumi : ℤ)

/-- What a warp of the IQ2_XXS kernels adds up for a row. -/
def iq2RowDot (books : Codebooks K) (x : Q8 K) (blocks : ℕ → Byte) (width row : ℕ) : K :=
  let blocksPerRow := width / 256
  let groups := cdiv width 32
  loop (List.range blocksPerRow) (fun blockIdx acc =>
    let kBase := blockIdx * 256
    let xq (i : ℕ) := if kBase + i / 4 * 4 + 4 ≤ width then x.codes (kBase + i) else 0
    let xs (g : ℕ) := if blockIdx * 8 + g < groups then x.scales (blockIdx * 8 + g) else 0
    let block := bytesFrom blocks (row * blocksPerRow * 66 + blockIdx * 66)
    acc + warpDown (· + ·) 32 16 (iq2Lane books xq xs block) 0) 0

/-- What the four numbers of a lane of the Q2_K kernels have for a group: `part` is the lane's place
in the group. -/
def q2kPart (books : Codebooks K) (x : Q8 K) (block : ℕ → Byte)
    (blockIdx group shift byteStart part : ℕ) : K :=
  let scales := bytesFrom block 0
  let qs := bytesFrom block 16
  let d := books.half (f16Bits block 80)
  let dmin := books.half (f16Bits block 82)
  let idx := part * 4
  let wPack := pack4 fun j => BitVec.ofNat 8 ((qs (byteStart + idx + j)).val >>> shift &&& 0x03)
  let hIdx := blockIdx * 256 + group * 16 + idx
  let hPack := pack4 fun j => x.codes (hIdx + j)
  let dotQ := dp4a wPack hPack 0
  let sumH := dp4a 0x01010101#32 hPack 0
  let qscale := d * ((scales group).val &&& 0x0f : ℕ)
  let base := dmin * ((scales group).val >>> 4 : ℕ)
  x.scales (blockIdx * 16 + group) * (qscale * (dotQ : ℤ) - base * (sumH : ℤ))

/-- A lane of `gguf_moe_grouped_w2_q2k_dp4a_kernel` in a half of a block. -/
def q2kLane (books : Codebooks K) (x : Q8 K) (block : ℕ → Byte) (blockIdx half lane : ℕ) : K :=
  let sub := lane >>> 2
  q2kPart books x block blockIdx (half * 8 + sub) ((sub >>> 1) * 2) (half * 32 + (sub &&& 1) * 16)
    (lane &&& 3)

/-- What a warp of the Q2_K kernels adds up for a row: first the four lanes of each group. -/
def q2kRowDot (books : Codebooks K) (x : Q8 K) (blocks : ℕ → Byte) (width row : ℕ) : K :=
  let blocksPerRow := width / 256
  loop (List.range blocksPerRow) (fun blockIdx acc =>
    let block := bytesFrom blocks (row * blocksPerRow * 84 + blockIdx * 84)
    loop (List.range 2) (fun half acc =>
      let local_ := warpDown (· + ·) 4 2 (q2kLane books x block blockIdx half)
      let groupSum (lane : ℕ) := if lane &&& 3 = 0 then local_ lane else 0
      acc + warpDown (· + ·) 32 16 groupSum 0) acc) 0

/-- What four lanes of `gguf_moe_grouped_w2_q2k_dp4a_expert_tile_kernel` add up for a row. -/
def q2kRowDotTile (books : Codebooks K) (x : Q8 K) (blocks : ℕ → Byte) (width row sub : ℕ) : K :=
  let blocksPerRow := width / 256
  loop (List.range blocksPerRow) (fun blockIdx acc =>
    let block := bytesFrom blocks (row * blocksPerRow * 84 + blockIdx * 84)
    loop (List.range 16) (fun group acc =>
      let halfBlock := group >>> 3
      let groupInHalf := group &&& 7
      let local_ := warpDown (· + ·) 4 2 fun lane => q2kPart books x block blockIdx group
        ((groupInHalf >>> 1) * 2) (halfBlock * 32 + (groupInHalf &&& 1) * 16) (lane &&& 3)
      acc + local_ (4 * sub)) acc) 0

/-! ## Tiles of IQ1_M -/

/-- `iq1m_group_meta`: the scale of a group of 16, and the shifts of its halves. -/
def iq1mGroupMeta (books : Codebooks K) (block : ℕ → Byte) (s : ℕ) : K × K × K :=
  let qh := bytesFrom block 32
  let sc (w : ℕ) := leWord block (48 + 2 * w) 2
  let localScale := sc (s >>> 2) >>> ((s &&& 3) * 3) &&& 0x07
  let j0 := (s >>> 1) * 4 + (s &&& 1) * 2
  let qhv (j : ℕ) := (qh (j >>> 1)).val >>> ((j &&& 1) * 4) &&& 0x0F
  let delta (j : ℕ) : K := if qhv j &&& 0x08 ≠ 0 then -1 / 8 else 1 / 8
  (iq1mSuperScale books sc * (2 * localScale + 1 : ℕ), delta j0, delta (j0 + 1))

/-- `iq1m_group_value` -/
def iq1mGroupValue (books : Codebooks K) (block : ℕ → Byte) (s k : ℕ) : BitVec 8 :=
  let qs := bytesFrom block 0
  let qh := bytesFrom block 32
  let pair := k >>> 3
  let g := k &&& 7
  let j := (s >>> 1) * 4 + (s &&& 1) * 2 + pair
  let qhv := (qh (j >>> 1)).val >>> ((j &&& 1) * 4) &&& 0x0F
  let qidx := (qs j).val ||| (qhv &&& 0x07) <<< 8
  books.iq1Grid (qidx * 8 + g)

section Tile

variable (b : Block)

/-- `a_tile` -/
def aTile (x : ℕ → Q8 K) (width k0 i : ℕ) : ℤ :=
  let k := i % 16
  if b.there (b.row i) ∧ k0 + k < width then
    ((x (b.place (b.row i))).codes (k0 + k)).toInt
  else 0

/-- The block of a column for a group, with its bounds. -/
def tileBlock (data : ℕ → Byte) (cols width col kg : ℕ) : Option (ℕ → Byte) :=
  let blocksPerRow := cdiv width 256
  let blockIdx := kg >>> 4
  if col < cols ∧ blockIdx < blocksPerRow then
    some (bytesFrom data (((b.expert * cols + col) * blocksPerRow + blockIdx) * 56))
  else none

/-- `b_tile_w1`, `b_tile_w3` and `b_tile`: value `k` of column `n` is at the lane `k + n * 16`. -/
def bTile (books : Codebooks K) (data : ℕ → Byte) (cols width kg i : ℕ) : ℤ :=
  let k := i % 16
  let col := b.colBase + i / 16
  match tileBlock b data cols width col kg with
  | some block =>
    if kg * 16 + k < width then (iq1mGroupValue books block (kg &&& 15) k).toInt else 0
  | none => 0

/-- `dl`, `delta0` and `delta1` of a column. -/
def tileMeta (books : Codebooks K) (data : ℕ → Byte) (cols width kg n : ℕ) : K × K × K :=
  match tileBlock b data cols width (b.colBase + n) kg with
  | some block => iq1mGroupMeta books block (kg &&& 15)
  | none => (0, 0, 0)

/-- `gate_acc`, `up_acc` and `acc` after the loop. -/
def tileAcc (books : Codebooks K) (x : ℕ → Q8 K) (data : ℕ → Byte) (cols width : ℕ) : ℕ → K :=
  loop (List.range (cdiv width 16)) (fun kg acc i =>
    let r := i / 16
    let n := i % 16
    let a := aTile b x width (kg * 16)
    let sum0 := loop (List.range 8) (fun k s => s + a (r * 16 + k)) 0
    let sum1 := loop (List.range' 8 8) (fun k s => s + a (r * 16 + k)) 0
    let c := mma a (bTile b books data cols width kg) (fun _ => 0)
    let (dl, delta0, delta1) := tileMeta b books data cols width kg n
    if b.there (b.row i) ∧ b.col i < cols then
      let xs := (x (b.place (b.row i))).scales kg
      let corrected := (c i : ℤ) + delta0 * (sum0 : ℤ) + delta1 * (sum1 : ℤ)
      acc i + xs * dl * corrected
    else acc i) fun _ => 0

end Tile

end PocketMoE.Engine.GgufMoe
