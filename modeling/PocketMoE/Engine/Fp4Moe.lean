import Mathlib.Algebra.Field.Rat
import Mathlib.Algebra.Order.Ring.Unbundled.Rat
import Mathlib.Data.Int.Init
import PocketMoE.Engine.MoeTiles
import PocketMoE.Lib.ByteLanes
import PocketMoE.Lib.Numerals

/-!
# The FP4 experts: grouped prefill and single tokens

Model of the kernels of `fp4_ops.cu` that `moe_group_routes_cuda`,
`moe_prefill_fp4_grouped_cuda_with_workspace` and `moe_single_token_fp4_cuda_with_workspace` launch,
and of the tile lists of `run_safetensors_prompt_prefill_impl` (`dsv4_engine.cpp`). Arithmetic and
indices are exact. The quantiser of a row is a parameter, and so is `expf`.

Threads that do an atomic operation run in some order; a thread of a tile is its lane.
-/

namespace PocketMoE.Engine.Fp4Moe

open PocketMoE.Lib

variable {K : Type} [Field K] [LinearOrder K]

/-- A row of signed bytes, and its scale. -/
structure Quantized (K : Type) where
  codes : ℕ → BitVec 8
  scale : K

/-- The experts of a rank: codes and scales of the three matrices, expert after expert, row after
row. -/
structure Experts (K : Type) where
  expertsStartIdx : ℤ
  nLocalExperts : ℕ
  dim : ℕ
  interDim : ℕ
  dimBlocks : 32 ∣ dim
  interBlocks : 32 ∣ interDim
  w1q : ℕ → BitVec 8
  w1s : ℕ → BitVec 8
  w2q : ℕ → BitVec 8
  w2s : ℕ → BitVec 8
  w3q : ℕ → BitVec 8
  w3s : ℕ → BitVec 8
  swigluLimit : K
  expf : K → K
  quantizeRow : List K → Quantized K

/-- The tokens of a chunk, with `topk` routes each. -/
structure Chunk (K : Type) where
  tokens : ℕ
  topk : ℕ
  topkPos : 0 < topk
  x : ℕ → K
  indices : ℕ → ℤ
  weights : ℕ → K

/-! ## Values -/

/-- `fp4_lut_x2` -/
def fp4LutX2 : List ℤ := [0, 1, 2, 3, 4, 6, 8, 12, 0, -1, -2, -3, -4, -6, -8, -12]

/-- `fp4_decode_code_x2` -/
def fp4DecodeCodeX2 (code : BitVec 8) : ℤ := fp4LutX2.getD (code &&& 0x0f#8).toNat 0

/-- `fp4_block_scale`: the float with this exponent and no mantissa. -/
def fp4BlockScale (scaleByte : BitVec 8) : K :=
  let exponent := scaleByte.toNat - 1
  if exponent = 0 then 0 else 2 ^ ((exponent : ℤ) - 127)

/-- `fp4_unpack_4codes_prmt` -/
def fp4Unpack4CodesPrmt (twoBytes : BitVec 32) : BitVec 32 :=
  let controlMags := twoBytes &&& 0x7777#32
  let pos := bytePerm 0x03020100#32 0x0c080604#32 controlMags
  let neg := bytePerm 0xfdfeff00#32 0xf4f8fafc#32 controlMags
  let controlSign := (twoBytes >>> 3) &&& 0x1111#32
  let mask := bytePerm 0x0000ff00#32 0x00000000#32 controlSign
  (pos &&& ~~~mask) ||| (neg &&& mask)

namespace Experts

variable (e : Experts K)

/-- `indices[idx] - experts_start_idx`, if it is the number of a local expert. -/
def localExpert (index : ℤ) : Option ℕ :=
  let expert := index.bmod (2 ^ 32)
  let local_ := expert - e.expertsStartIdx
  if 0 ≤ local_ ∧ local_ < e.nLocalExperts then some local_.toNat else none

/-- `silu * up * route_weight`, of limited numbers. -/
def swiglu (gateUp : K × K) (routeWeight : K) : K :=
  let limit := e.swigluLimit
  let up := if 0 < limit then min (max gateUp.2 (-limit)) limit else gateUp.2
  let gate := if 0 < limit then min gateUp.1 limit else gateUp.1
  gate / (1 + e.expf (-gate)) * up * routeWeight

/-- The row that the quantising SwiGLU kernels make of a row of gates and ups. -/
def hiddenRow (gateUp : ℕ → K × K) (routeWeight : K) : Quantized K :=
  e.quantizeRow ((List.range e.interDim).map fun col => e.swiglu (gateUp col) routeWeight)

end Experts

/-! ## A single token -/

/-- What the single-token kernels add up for a row `col` of an expert's matrix with rows of `width`
codes, block after block: four codes at a time. -/
def singleDot (x : ℕ → BitVec 8) (wq ws : ℕ → BitVec 8) (cols width expert col : ℕ) : K :=
  let rowBytes := (expert * cols + col) * (width / 2)
  let scaleRow := (expert * cols + col) * (width / 32)
  loop (List.range (width / 32)) (fun kb acc =>
    let block := loop (List.range 8) (fun ip acc =>
      let pack := kb * 8 + ip
      let twoBytes := (wq (rowBytes + 2 * pack + 1) ++ wq (rowBytes + 2 * pack)).setWidth 32
      dp4a (pack4 fun j => x (4 * pack + j)) (fp4Unpack4CodesPrmt twoBytes) acc) 0
    acc + (block : ℤ) * fp4BlockScale (ws (scaleRow + kb))) 0

section Single

variable (e : Experts K)

/-- `moe_single_w1w3_fp4_kernel` -/
def moeSingleW1w3Fp4Kernel (xq : Quantized K) (index : ℤ) (col : ℕ) : K × K :=
  match e.localExpert index with
  | none => (0, 0)
  | some expert => (singleDot xq.codes e.w1q e.w1s e.interDim e.dim expert col * xq.scale,
      singleDot xq.codes e.w3q e.w3s e.interDim e.dim expert col * xq.scale)

/-- `moe_single_swiglu_quant_fp4_kernel`; the bytes of a route that is not local stay. -/
def moeSingleSwigluQuantFp4Kernel (stale : ℕ → BitVec 8) (gateUp : ℕ → K × K) (index : ℤ)
    (routeWeight : K) : Quantized K :=
  match e.localExpert index with
  | none => ⟨stale, 0⟩
  | some _ => e.hiddenRow gateUp routeWeight

/-- `moe_single_w2_write_fp4_kernel` -/
def moeSingleW2WriteFp4Kernel (hidden : Quantized K) (index : ℤ) (col : ℕ) : K :=
  match e.localExpert index with
  | none => 0
  | some expert => singleDot hidden.codes e.w2q e.w2s e.dim e.interDim expert col * hidden.scale

/-- `moe_single_token_fp4_cuda_with_workspace` at a column of the output. -/
def moeSingleTokenFp4 (stale : ℕ → ℕ → BitVec 8) (topk : ℕ) (x : ℕ → K) (indices : ℕ → ℤ)
    (weights : ℕ → K) (col : ℕ) : K :=
  let xq := e.quantizeRow ((List.range e.dim).map x)
  let gateUp (route : ℕ) := moeSingleW1w3Fp4Kernel e xq (indices route)
  let hidden (route : ℕ) :=
    moeSingleSwigluQuantFp4Kernel e (stale route) (gateUp route) (indices route) (weights route)
  let routeY (route : ℕ) := moeSingleW2WriteFp4Kernel e (hidden route) (indices route) col
  loop (List.range topk) (fun route sum => sum + routeY route) 0

end Single

/-! ## Grouping the routes -/

section Group

variable (e : Experts K) (chunk : Chunk K) (order : Schedule)

/-- The local expert of an entry of `indices`. -/
def Chunk.expertOf (idx : ℕ) : Option ℕ := e.localExpert (chunk.indices idx)

/-- The threads of the count and the fill kernel. -/
def Chunk.entries : List ℕ := List.range (chunk.tokens * chunk.topk)

/-- `moe_route_count_kernel` -/
def moeRouteCountKernel : ℕ → ℕ := counts (chunk.expertOf e) (order.run chunk.entries)

/-- `moe_route_fill_kernel` after `moe_route_prefix_kernel`: the entry of each route. -/
def moeRouteFillKernel (stale : ℕ → ℕ) : ℕ → ℕ :=
  (placeAll (chunk.expertOf e) (order.run chunk.entries)
    (offsets (moeRouteCountKernel e chunk order)) stale).2

/-- What `moe_group_routes_cuda` leaves. -/
structure Routes (K : Type) where
  count : ℕ → ℕ
  tokens : ℕ → ℕ
  weights : ℕ → K

/-- `seg_starts` -/
def Routes.segStarts (routes : Routes K) : ℕ → ℕ := offsets routes.count

/-- `moe_group_routes_cuda` -/
def moeGroupRoutes (stale : ℕ → ℕ) : Routes K where
  count := moeRouteCountKernel e chunk order
  tokens route := moeRouteFillKernel e chunk order stale route / chunk.topk
  weights route := chunk.weights (moeRouteFillKernel e chunk order stale route)

end Group

/-! ## Tiles -/

section Block

variable (b : Block)

/-- `a_tile` -/
def aTile (x : ℕ → Quantized K) (k0 i : ℕ) : ℤ :=
  if b.there (b.row i) then ((x (b.place (b.row i))).codes (k0 + i % 16)).toInt else 0

/-- `b_tile`: the lane of the code `k` of column `n` is `k + n * 16`. -/
def bTile (wq : ℕ → BitVec 8) (cols width k0 i : ℕ) : ℤ :=
  let k := i % 16
  let col := b.colBase + i / 16
  if col < cols then
    let kk := k0 + k
    let byte := wq ((b.expert * cols + col) * (width / 2) + kk / 2)
    fp4DecodeCodeX2 (if kk % 2 = 1 then byte >>> 4 else byte &&& 0x0f#8)
  else 0

/-- `c_tile` of a block of 32 codes. -/
def cTile (x : ℕ → Quantized K) (wq : ℕ → BitVec 8) (cols width kb : ℕ) : ℕ → ℤ :=
  loop (List.range 2) (fun half c =>
    let k0 := kb * 32 + half * 16
    mma (aTile b x k0) (bTile b wq cols width k0) c) fun _ => 0

/-- `gate_acc`, `up_acc` and `acc` after the loop. -/
def acc (x : ℕ → Quantized K) (wq ws : ℕ → BitVec 8) (cols width : ℕ) : ℕ → K :=
  loop (List.range (width / 32)) (fun kb acc i =>
    if b.col i < cols then
      let s := fp4BlockScale (ws ((b.expert * cols + b.col i) * (width / 32) + kb))
      acc i + (cTile b x wq cols width kb i : ℤ) * s
    else acc i) fun _ => 0

variable (e : Experts K)

/-- The stores to `gate_f32` and `up_f32`. -/
def w13Stores (x : ℕ → Quantized K) : List ((ℕ × ℕ) × (K × K)) :=
  (b.lanes e.interDim).map fun i =>
    let xs := (x (b.place (b.row i))).scale
    ((b.place (b.row i), b.col i),
      (acc b x e.w1q e.w1s e.interDim e.dim i * xs, acc b x e.w3q e.w3s e.interDim e.dim i * xs))

/-- The additions to `y`. -/
def w2Adds (routes : Routes K) (hidden : ℕ → Quantized K) : List ((ℕ × ℕ) × K) :=
  (b.lanes e.dim).map fun i =>
    let route := routes.segStarts b.expert + b.row i
    ((routes.tokens route, b.col i),
      acc b hidden e.w2q e.w2s e.dim e.interDim i * (hidden (b.place (b.row i))).scale)

end Block

/-! ## Grouped prefill -/

/-- A family of tile kernels: compact tiles with one tile of columns a block or `warps` of them, or
padded rows. -/
inductive Family where
  | compact
  | nsplit (warps : ℕ) (pos : 0 < warps)
  | padded

/-- The kernels that are launched, by `DSV4_CPP_MOE_NSPLIT` and `DSV4_CPP_MOE_FORCE_PADDED`. -/
def family (kMoeNSplit : ℕ) (forcePaddedMoe : Bool) : Family :=
  if forcePaddedMoe then .padded
  else if kMoeNSplit = 4 then .nsplit 4 (by decide)
  else if kMoeNSplit = 2 then .nsplit 2 (by decide)
  else .compact

/-- The first columns of the tiles of a launch. -/
def Family.colBases (cols : ℕ) : Family → List ℕ
  | .nsplit warps _ => splitCols warps cols
  | _ => tileCols cols

section Prefill

variable (e : Experts K) (chunk : Chunk K) (order : Schedule) (routes : Routes K)

/-- `max_count` -/
def maxCount : ℕ := longest e.nLocalExperts routes.count

/-- `gather_routes_float_kernel` and `quantize_float_rows_kernel`: a row for each route. -/
def gatheredRow (route : ℕ) : Quantized K :=
  let xSorted (idx : ℕ) :=
    let token := routes.tokens (idx / e.dim)
    chunk.x (token * e.dim + (idx - idx / e.dim * e.dim))
  e.quantizeRow ((List.range e.dim).map fun k => xSorted (route * e.dim + k))

/-- A launch of a `w13` kernel. -/
def launchW13 (blocks : List Block) (x : ℕ → Quantized K) (before : ℕ × ℕ → K × K) :
    ℕ × ℕ → K × K :=
  loop (order.run (blocks.flatMap fun b => w13Stores b e x))
    (fun s gateUp => Function.update gateUp s.1 s.2) before

/-- A launch of a `w2` kernel. -/
def launchW2 (blocks : List Block) (hidden : ℕ → Quantized K) (y : ℕ × ℕ → K) : ℕ × ℕ → K :=
  loop (order.run (blocks.flatMap fun b => w2Adds b e routes hidden))
    (fun s y => Function.update y s.1 (y s.1 + s.2)) y

/-- The compact path. -/
def compactPrefill (f : Family) (before : ℕ × ℕ → K × K) (y : ℕ × ℕ → K) : ℕ × ℕ → K :=
  let blocks (cols : ℕ) :=
    compactBlocks e.nLocalExperts routes.count routes.segStarts (f.colBases cols)
  let gateUp := launchW13 e order (blocks e.interDim) (gatheredRow e chunk routes) before
  -- `moe_prefill_swiglu_quant_fp4_routes_kernel`
  let hidden (route : ℕ) := e.hiddenRow (fun col => gateUp (route, col)) (routes.weights route)
  launchW2 e order routes (blocks e.dim) hidden y

/-- The blocks of the padded kernels: the experts, `rowsPerExpert` rows for each. -/
def paddedBlocks (rowsPerExpert cols : ℕ) : List Block :=
  ((List.range e.nLocalExperts ×ˢ List.range (cdiv rowsPerExpert 16)) ×ˢ
      tileCols cols).map fun p =>
    { expert := p.1.1, rowBase := p.1.2 * 16, colBase := p.2
      there := fun row => decide (row < routes.count p.1.1) && decide (row < rowsPerExpert)
      place := fun row => p.1.1 * rowsPerExpert + row }

/-- A padded row that is there as it is made of the route, and any other as zeros. -/
def padRow (rowsPerExpert : ℕ) (make : ℕ → Quantized K) (padded : ℕ) : Quantized K :=
  let row := padded % rowsPerExpert
  let expert := padded / rowsPerExpert
  if row < routes.count expert then make (routes.segStarts expert + row) else ⟨fun _ => 0, 0⟩

/-- The padded path. -/
def paddedPrefill (y : ℕ × ℕ → K) : ℕ × ℕ → K :=
  let rowsPerExpert := maxCount e routes
  -- `pad_q_rows_kernel`
  let x := padRow routes rowsPerExpert (gatheredRow e chunk routes)
  let gateUp := launchW13 e order (paddedBlocks e routes rowsPerExpert e.interDim) x fun _ => (0, 0)
  -- `moe_prefill_swiglu_quant_fp4_kernel`
  let hidden (padded : ℕ) := padRow routes rowsPerExpert (fun route =>
    e.hiddenRow (fun col => gateUp (padded, col)) (routes.weights route)) padded
  launchW2 e order routes (paddedBlocks e routes rowsPerExpert e.dim) hidden y

/-- `moe_prefill_fp4_grouped_cuda_with_workspace`, over the `total_routes` of the grouping. -/
def moePrefillFp4Grouped (f : Family) (before : ℕ × ℕ → K × K) : ℕ × ℕ → K :=
  if routes.segStarts e.nLocalExperts = 0 ∨ maxCount e routes = 0 then fun _ => 0
  else
    match f with
    | .padded => paddedPrefill e chunk order routes fun _ => 0
    | f => compactPrefill e chunk order routes f before fun _ => 0

end Prefill

end PocketMoE.Engine.Fp4Moe
