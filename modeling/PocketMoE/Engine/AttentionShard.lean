import Mathlib.Algebra.BigOperators.Pi
import Mathlib.Algebra.Order.Field.Basic
import Mathlib.Data.List.GetD
import PocketMoE.Lib.BlockScale
import PocketMoE.Lib.Numerals

/-!
# The attention of a rank

Attention of a decoded token in the C++ engine: `make_attention_dims`, what `attention_device_cache`
copies for a rank, `run_single_token_attention_smoke` and the kernels it launches (`dsv4_engine.cpp`,
`fp8_ops.cu`, `rmsnorm_rope.cu`, `cuda_ops.cu`), with the KV indices of a layer that has a cache and
without the int8 copy of `wo_a`. Floats are taken exactly, functions of a float are parameters.

A tensor is the array that starts at its first byte and goes on behind its last one; so is what a rank
has on its device. `forward` is `Attention.forward` (`runtime.py`) on one rank, with the weights times
the scales of their blocks.
-/

namespace PocketMoE.Engine
open PocketMoE.Lib

variable {K : Type} [Field K] [LinearOrder K]

/-! ## Dimensions -/

/-- What `make_attention_dims` reads of a config, and the width of the embedding. -/
structure AttentionConfig where
  dim : Nat
  qLoraRank : Nat
  nHeads : Nat
  headDim : Nat
  kvHeads : Nat
  oGroups : Nat
  oLoraRank : Nat
  ropeDim : Nat

/-- `AttentionSmokeDims`: the sizes on a rank. -/
structure AttentionSmokeDims where
  dim : Nat
  qADim : Nat
  heads : Nat
  headDim : Nat
  qDim : Nat
  kvDim : Nat
  groups : Nat
  groupRank : Nat
  attnMid : Nat
  ropeDim : Nat
  groupDim : Nat

/-- The sizes of a rank out of `tpWorld`. -/
def AttentionConfig.dims (cfg : AttentionConfig) (tpWorld : Nat) : AttentionSmokeDims :=
  let heads := cfg.nHeads / tpWorld
  let qDim := heads * cfg.headDim
  let groups := cfg.oGroups / tpWorld
  { dim := cfg.dim
    qADim := cfg.qLoraRank
    heads
    headDim := cfg.headDim
    qDim
    kvDim := cfg.kvHeads * cfg.headDim
    groups
    groupRank := cfg.oLoraRank
    attnMid := cfg.oLoraRank * groups
    ropeDim := cfg.ropeDim
    groupDim := qDim / groups }

/-- `make_attention_dims`. -/
def makeAttentionDims (cfg : AttentionConfig) (tpWorld : Nat) : Except String AttentionSmokeDims :=
  let dims := cfg.dims tpWorld
  if cfg.nHeads % tpWorld ≠ 0 ∨ cfg.oGroups % tpWorld ≠ 0 then
    .error "attention heads/groups must divide TP world"
  else if dims.qADim = 0 ∨ dims.heads = 0 ∨ dims.headDim = 0 ∨ dims.kvDim = 0 ∨ dims.groups = 0 ∨
      dims.groupRank = 0 ∨ dims.ropeDim = 0 then
    .error "invalid attention dimensions in config"
  else if dims.qDim % dims.groups ≠ 0 then
    .error "attention q dim must be divisible by output groups"
  else if dims.kvDim ≠ dims.headDim then
    .error "single-token attention expects one KV head"
  else .ok dims

/-! ## Tensors -/

/-- The tensors of a layer's attention: in the file, on a device, or what lies behind the copies on a
device. -/
structure AttentionWeights (K : Type) where
  attnNorm : Nat → K
  qNorm : Nat → K
  kvNorm : Nat → K
  attnSink : Nat → K
  wqA : Nat → UInt8
  wqAScale : Nat → UInt8
  wqB : Nat → UInt8
  wqBScale : Nat → UInt8
  wkv : Nat → UInt8
  wkvScale : Nat → UInt8
  woA : Nat → UInt8
  woAScale : Nat → UInt8
  woB : Nat → UInt8
  woBScale : Nat → UInt8

omit [Field K] [LinearOrder K] in
/-- `attention_device_cache`: some tensors whole, the parts of the others. -/
def attentionDeviceCache (cfg : AttentionConfig) (dims : AttentionSmokeDims) (tpRank : Nat)
    (file behind : AttentionWeights K) : AttentionWeights K :=
  let localHeadStart := tpRank * dims.heads
  let qRowStart := localHeadStart * dims.headDim
  let localGroupStart := tpRank * dims.groups
  let woARowStart := localGroupStart * dims.groupRank
  { file with
    wqB := sliceRows behind.wqB file.wqB qRowStart dims.qDim dims.qADim
    wqBScale := sliceRows behind.wqBScale file.wqBScale (qRowStart / 128) (dims.qDim / 128)
      (dims.qADim / 128)
    woA := sliceRows behind.woA file.woA woARowStart dims.attnMid dims.dim
    woAScale := sliceRows behind.woAScale file.woAScale (woARowStart / 128) (dims.attnMid / 128)
      (dims.dim / 128)
    woB := sliceCols behind.woB file.woB dims.dim (cfg.oLoraRank * cfg.oGroups) woARowStart
      dims.attnMid
    woBScale := sliceCols behind.woBScale file.woBScale (dims.dim / 128)
      (cfg.oLoraRank * cfg.oGroups / 128) (woARowStart / 128) (dims.attnMid / 128)
    attnSink := copied behind.attnSink dims.heads fun i => file.attnSink (localHeadStart + i) }

/-! ## Kernels -/

/-- Functions of a float: `fp8_act_quant_dequant` acts on a block of 64. -/
structure FloatFns (K : Type) [Field K] [LinearOrder K] where
  rsqrt : K → K
  exp : K → K
  cos : K → K
  sin : K → K
  actQuant : (Nat → K) → Nat → K
  exp_pos : ∀ x, 0 < exp x
  cos_sq_add_sin_sq : ∀ x, cos x ^ 2 + sin x ^ 2 = 1

/-- What a decoded token brings to the attention of a layer. -/
structure AttentionStep (K : Type) where
  x : Nat → K
  position : Nat
  invFreqs : Nat → K
  cacheWriteSlot : Nat
  kvCache : Nat → Nat → K
  kvIndices : List Int
  kvIndices_ne : kvIndices ≠ []

section Kernels

variable (f : FloatFns K) (t : AttentionStep K)

omit [LinearOrder K] in
/-- `fp8_e4m3_value`. -/
def fp8E4m3Value (code : UInt8) : K :=
  let exponent := code.toNat / 8 % 16
  let mant := code.toNat % 8
  let value : K := if exponent = 0 then mant / 8 * 2 ^ (-6 : ℤ)
    else (1 + mant / 8) * 2 ^ ((exponent : ℤ) - 7)
  if code.toNat / 128 = 1 then -value else value

omit [LinearOrder K] in
/-- `fp8_e8m0_value`. -/
def fp8E8m0Value (code : UInt8) : K := 2 ^ ((code.toNat : ℤ) - 127)

omit [LinearOrder K] in
/-- `fp8_e4m3_e8m0_matvec_kernel`. -/
def matvec (x : Nat → K) (weight scale : Nat → UInt8) (cols : Nat) : Nat → K := fun row =>
  ∑ col ∈ Finset.range cols,
    scaled 128 fp8E4m3Value fp8E8m0Value weight scale cols row col * x col

omit [LinearOrder K] in
/-- `fp8_e4m3_e8m0_matvec_cuda`. -/
def fp8E4m3E8m0MatvecCuda (x : Nat → K) (weight scale : Nat → UInt8) (rows cols : Nat) :
    Option (Nat → K) :=
  if rows = 0 ∨ cols = 0 then none
  else if rows % 128 ≠ 0 ∨ cols % 128 ≠ 0 then none
  else some (matvec x weight scale cols)

/-- `rmsnorm_bf16_gamma_kernel`. -/
def rmsnorm (x gamma : Nat → K) (cols : Nat) : Nat → K := fun c =>
  x c * f.rsqrt ((∑ i ∈ Finset.range cols, x i ^ 2) / cols + 1 / 1000000) * gamma c

/-- `rmsnorm_bf16_gamma_cuda`. -/
def rmsnormBf16GammaCuda (x gamma : Nat → K) (cols : Nat) : Option (Nat → K) :=
  if cols = 0 then none else some (rmsnorm f x gamma cols)

/-- `head_rmsnorm_rope_freqs_kernel` on one head: the norm if there is an `eps`, then a rotation of the
last `ropeDim` entries, pair by pair. -/
def ropeHead (headDim ropeDim : Nat) (inverse : Bool) (eps : K) (row : Nat → K) : Nat → K := fun i =>
  let norm := f.rsqrt ((∑ j ∈ Finset.range headDim, row j ^ 2) / headDim + eps)
  let x := fun j => if 0 < eps then row j * norm else row j
  let ropeStart := headDim - ropeDim
  let pair := (i - ropeStart) / 2
  let angle := t.position * t.invFreqs pair
  let c := f.cos angle
  let s := if inverse then -f.sin angle else f.sin angle
  let a := x (ropeStart + 2 * pair)
  let b := x (ropeStart + 2 * pair + 1)
  if i < ropeStart then x i
  else if (i - ropeStart) % 2 = 0 then a * c - b * s else a * s + b * c

omit [Field K] [LinearOrder K] in
/-- The heads of a row, one after another: each block of a kernel sees the entries of its head. -/
def headwise [Zero K] (headDim : Nat) (F : Nat → (Nat → K) → Nat → K) (x : Nat → K) : Nat → K :=
  fun i => F (i / headDim) (fun j => if j < headDim then x (i / headDim * headDim + j) else 0)
    (i % headDim)

/-- `head_rmsnorm_rope_freqs_cuda`. -/
def headRmsnormRopeFreqsCuda (x : Nat → K) (heads headDim ropeDim : Nat) (inverse : Bool) (eps : K) :
    Option (Nat → K) :=
  if heads = 0 ∨ headDim = 0 ∨ ropeDim = 0 ∨ headDim < ropeDim ∨ ropeDim % 2 ≠ 0 then none
  else some (headwise headDim (fun _ => ropeHead f t headDim ropeDim inverse eps) x)

/-- `fp8_act_quant_dequant_kernel`, with blocks of 64. -/
def actQuantRow (x : Nat → K) (cols : Nat) : Nat → K := fun i =>
  if i < cols then f.actQuant (fun j => x (i / 64 * 64 + j)) (i % 64) else x i

/-- `fp8_act_quant_dequant_cuda`. -/
def fp8ActQuantDequantCuda (x : Nat → K) (cols : Nat) : Option (Nat → K) :=
  if cols = 0 ∨ cols % 64 ≠ 0 then none else some (actQuantRow f x cols)

omit [Field K] [LinearOrder K] in
/-- The rows that the indices name; a negative one names none. -/
def rowsAt (kvCache : Nat → Nat → K) (indices : List Int) : List (Nat → K) :=
  indices.filterMap fun i => if i < 0 then none else some (kvCache i.toNat)

/-- `indexed_cached_single_token_attention_kernel` on one head. -/
def attendHead (headDim : Nat) (rows : List (Nat → K)) (sink : K) (q : Nat → K) : Nat → K := fun i =>
  let logit := fun kv : Nat → K =>
    (∑ j ∈ Finset.range headDim, q j * kv j) * f.rsqrt headDim
  let maxLogit := (rows.map logit).foldr max sink
  let denom := (rows.map fun kv => f.exp (logit kv - maxLogit)).sum + f.exp (sink - maxLogit)
  (rows.map fun kv => f.exp (logit kv - maxLogit) * kv i).sum * (1 / denom)

/-- The heads' values, each turned back. -/
def attnValue (headDim ropeDim : Nat) (rows : List (Nat → K)) (sink q : Nat → K) : Nat → K :=
  headwise headDim (fun _ => ropeHead f t headDim ropeDim true 0)
    (headwise headDim (fun head => attendHead f headDim rows (sink head)) q)

/-! ## A rank -/

/-- The latent of the query: `attn_norm`, `wq_a`, `q_norm`. -/
def qNormRow (d : AttentionSmokeDims) (w : AttentionWeights K) : Nat → K :=
  rmsnorm f (matvec (rmsnorm f t.x w.attnNorm d.dim) w.wqA w.wqAScale d.dim) w.qNorm d.qADim

/-- The row of the key: `wkv`, `kv_norm`, the rotation and the quantisation. -/
def kvNormRow (d : AttentionSmokeDims) (w : AttentionWeights K) : Nat → K :=
  actQuantRow f (headwise d.headDim (fun _ => ropeHead f t d.headDim d.ropeDim false 0)
    (rmsnorm f (matvec (rmsnorm f t.x w.attnNorm d.dim) w.wkv w.wkvScale d.dim) w.kvNorm d.kvDim))
    (d.headDim - d.ropeDim)

omit [LinearOrder K] in
/-- The `wo_a` of a group of heads. -/
def woAGroup (d : AttentionSmokeDims) (w : AttentionWeights K) (value : Nat → K) (g : Nat) :
    Option (Nat → K) :=
  fp8E4m3E8m0MatvecCuda (fun i => value (g * d.groupDim + i))
    (fun i => w.woA (g * d.groupRank * d.groupDim + i))
    (fun i => w.woAScale (g * (d.groupRank / 128) * (d.groupDim / 128) + i)) d.groupRank d.groupDim

/-- `run_single_token_attention_smoke`; `none` is a launch that was refused. -/
def runSingleTokenAttention (d : AttentionSmokeDims) (w : AttentionWeights K) :
    Option (Nat → K) := do
  let attnNorm ← rmsnormBf16GammaCuda f t.x w.attnNorm d.dim
  let qA ← fp8E4m3E8m0MatvecCuda attnNorm w.wqA w.wqAScale d.qADim d.dim
  let qNorm ← rmsnormBf16GammaCuda f qA w.qNorm d.qADim
  let q ← fp8E4m3E8m0MatvecCuda qNorm w.wqB w.wqBScale d.qDim d.qADim
  let q ← headRmsnormRopeFreqsCuda f t q d.heads d.headDim d.ropeDim false (1 / 1000000)
  let kvA ← fp8E4m3E8m0MatvecCuda attnNorm w.wkv w.wkvScale d.kvDim d.dim
  let kvNorm ← rmsnormBf16GammaCuda f kvA w.kvNorm d.kvDim
  let kvNorm ← headRmsnormRopeFreqsCuda f t kvNorm 1 d.headDim d.ropeDim false 0
  let kvNorm ← fp8ActQuantDequantCuda f kvNorm (d.headDim - d.ropeDim)
  let rows := rowsAt (Function.update t.kvCache t.cacheWriteSlot kvNorm) t.kvIndices
  let value := headwise d.headDim (fun head => attendHead f d.headDim rows (w.attnSink head)) q
  let value ← headRmsnormRopeFreqsCuda f t value d.heads d.headDim d.ropeDim true 0
  let mids ← (List.range d.groups).mapM (woAGroup d w value)
  let mid := fun m => mids.getD (m / d.groupRank) 0 (m % d.groupRank)
  fp8E4m3E8m0MatvecCuda mid w.woB w.woBScale d.dim d.attnMid

/-- The attention of a rank, before the ranks' results are summed. -/
def rankOutput (cfg : AttentionConfig) (tpWorld tpRank : Nat) (file behind : AttentionWeights K) :
    Except String (Fin cfg.dim → K) :=
  match makeAttentionDims cfg tpWorld with
  | .error e => .error e
  | .ok d =>
    match runSingleTokenAttention f t d (attentionDeviceCache cfg d tpRank file behind) with
    | none => .error "single-token attention smoke launch failed"
    | some out => .ok fun i => out i

/-- The all-reduce of the ranks' results. -/
def allReduced (cfg : AttentionConfig) (tpWorld : Nat) (file : AttentionWeights K)
    (behind : Nat → AttentionWeights K) : Except String (Fin cfg.dim → K) :=
  match (List.range tpWorld).mapM fun rank => rankOutput f t cfg tpWorld rank file (behind rank) with
  | .error e => .error e
  | .ok outs => .ok outs.sum

/-! ## `Attention.forward` -/

omit [LinearOrder K] in
/-- A linear layer whose weights are times the scales of their blocks of 128 by 128. -/
def linear (x : Nat → K) (weight scale : Nat → UInt8) (inFeatures row : Nat) : K :=
  ∑ col ∈ Finset.range inFeatures,
    fp8E4m3Value (weight (row * inFeatures + col)) *
      fp8E8m0Value (scale (row / 128 * ((inFeatures + 127) / 128) + col / 128)) * x col

/-- `Attention.forward` on a decoded token, on one rank. -/
def forward (cfg : AttentionConfig) (w : AttentionWeights K) : Nat → K :=
  let x := rmsnorm f t.x w.attnNorm cfg.dim
  let qr := rmsnorm f (linear x w.wqA w.wqAScale cfg.dim) w.qNorm cfg.qLoraRank
  let q := headwise cfg.headDim
    (fun _ => ropeHead f t cfg.headDim cfg.ropeDim false (1 / 1000000))
    (linear qr w.wqB w.wqBScale cfg.qLoraRank)
  let kv := actQuantRow f (headwise cfg.headDim
    (fun _ => ropeHead f t cfg.headDim cfg.ropeDim false 0)
    (rmsnorm f (linear x w.wkv w.wkvScale cfg.dim) w.kvNorm cfg.headDim)) (cfg.headDim - cfg.ropeDim)
  let rows := rowsAt (Function.update t.kvCache t.cacheWriteSlot kv) t.kvIndices
  let o := attnValue f t cfg.headDim cfg.ropeDim rows w.attnSink q
  let groupDim := cfg.nHeads * cfg.headDim / cfg.oGroups
  let mid := fun m => linear (fun i => o (m / cfg.oLoraRank * groupDim + i)) w.woA w.woAScale
    groupDim m
  linear mid w.woB w.woBScale (cfg.oGroups * cfg.oLoraRank)

end Kernels

end PocketMoE.Engine
