import Mathlib.Algebra.BigOperators.Field
import Mathlib.Algebra.BigOperators.Fin
import Mathlib.Algebra.Order.BigOperators.Ring.Finset
import Mathlib.Algebra.Order.Field.Basic
import Mathlib.Analysis.Complex.Exponential
import PocketMoE.Lib.BlockReduce
import PocketMoE.Lib.BlockScale
import PocketMoE.Lib.Loop
import PocketMoE.Lib.Softmax

/-!
# Hyper-connections

Every layer has `hc_mult` residual streams: `hc_pre` mixes them into its input, and `hc_post` mixes
its output back in, with a matrix whose rows and columns are divided by their sums in turn. Model of
`hc_split_sinkhorn` (`kernels/ops.py`), of `_hc_pre_impl`, `hc_pre` and `hc_post` (`runtime.py`) but
for the projections in eight and sixteen bits, and of the kernels of the extension and of the engine
(`cuda_ops.cu`).

All paths agree, for any cut into chunks (`hc_agrees`). However many layers there are, the streams
grow by no more than twice what the layers give (`forward_bounded`).
-/

namespace PocketMoE.Engine.HyperConnections

open PocketMoE.Lib PocketMoE.Softmax

variable {K : Type} [Field K] [LinearOrder K]

/-- What `hc_pre` reads of a block. `preCuda` and `postCuda`: enabled, available, and on the GPU. -/
structure Block (K : Type) where
  dim : ℕ
  hcMult : ℕ
  hcSinkhornIters : ℤ
  hcEps : K
  normEps : K
  hcPreChunkTokens : ℕ
  preCuda : Bool
  postCuda : Bool

/-- The parameters for the attention, or for the experts. -/
structure Weights (K : Type) where
  hcFn : ℕ → K
  hcScale : ℕ → K
  hcBase : ℕ → K

/-- What `hc_pre` gives for a token. -/
structure Pre (K : Type) where
  y : ℕ → K
  post : ℕ → K
  comb : ℕ → ℕ → K

/-- A tensor: a row for each token of each batch. -/
abbrev Rows (K : Type) := ℕ → ℕ → ℕ → K

variable (e : Exponential K) (sqrt : K → K)

/-- `torch.sigmoid` and `sigmoidf_fast` -/
def sigmoid (v : K) : K := 1 / (1 + e.exp (-v))

section Kernels

variable (sched : Schedule)

/-- Four threads, each of which adds up the four places of its line and divides them by the sum. -/
def divideLines (place : ℕ → ℕ → ℕ) (eps : K) (comb : ℕ → K) : ℕ → K :=
  loop (sched.run (List.range 4)) (fun tid comb =>
    let sum := loop (List.range 4) (fun k sum => sum + comb (place tid k)) 0
    loop (List.range 4) (fun k comb =>
      Function.update comb (place tid k) (comb (place tid k) / (sum + eps))) comb) comb

/-- `hc_split_pre_kernel`, and the end of `hc_pre_float_kernel`. -/
def hcSplitPreKernel (rounds dim : ℕ) (eps : K) (mixes scale base x : ℕ → K) : Pre K :=
  let pre (i : ℕ) := sigmoid e (mixes i * scale 0 + base i) + eps
  let logit (row c : ℕ) := mixes (8 + row * 4 + c) * scale 2 + base (8 + row * 4 + c)
  let row (tid : ℕ) := tid / 4
  let maxV (row : ℕ) := loop [1, 2, 3] (fun c m => max m (logit row c)) (logit row 0)
  let sum (row : ℕ) :=
    loop (List.range 4) (fun c s => s + e.exp (logit row c - maxV row)) 0
  let comb (tid : ℕ) :=
    e.exp (logit (row tid) (tid - row tid * 4) - maxV (row tid)) / sum (row tid) + eps
  let rows := divideLines sched (fun tid k => tid * 4 + k) eps
  let columns := divideLines sched (fun tid k => k * 4 + tid) eps
  let comb := loop (List.range rounds) (fun _ comb => columns (rows comb)) (columns comb)
  { y d := loop (List.range 4) (fun h acc => acc + pre h * x (h * dim + d)) 0
    post i := 2 * sigmoid e (mixes (4 + i) * scale 1 + base (4 + i))
    comb r c := comb (r * 4 + c) }

/-- `hc_pre_float_kernel`: the block adds up the squares, and each warp the products of its rows. -/
def hcPreFloatKernel (dim : ℕ) (w : Weights K) (h4 : ℕ → K) : Pre K :=
  let n := 4 * dim
  let eps : K := 1 / 1000000
  let sumSq (tid : ℕ) := loop (strided 256 n tid) (fun i s => s + h4 i * h4 i) 0
  let warps (warp : ℕ) := warpSum 16 (fun lane => sumSq (warp * 32 + lane)) 0
  let total := warpSum 4 (fun lane => if lane < 8 then warps lane else 0) 0
  let rsqrt := 1 / sqrt (total / n + eps)
  let mixes (r : ℕ) := warpSum 16 (fun lane =>
    loop (strided 32 n lane) (fun i dot => dot + w.hcFn (r * n + i) * h4 i) 0) 0 * rsqrt
  hcSplitPreKernel e sched 19 dim eps mixes w.hcScale w.hcBase h4

/-- `hc_pre_float_rows_kernel` -/
def hcPreFloatRowsKernel (dim : ℕ) (w : Weights K) (h4Rows : ℕ → K) (row : ℕ) : Pre K :=
  hcPreFloatKernel e sqrt sched dim w fun i => h4Rows (row * 4 * dim + i)

/-- `hc_post_float_kernel` and `hc_post_kernel` at a place of the output of a token. -/
def hcPostKernel (dim : ℕ) (x residual post : ℕ → K) (comb : ℕ → ℕ → K) (p : ℕ) : K :=
  let h := p / dim
  let d := p % dim
  loop (List.range 4) (fun i acc => acc + comb i h * residual (i * dim + d)) (post h * x d)

end Kernels

section Python

/-- `comb / (comb.sum(dim=-1, keepdim=True) + eps)` -/
def divideRows (hcMult : ℕ) (eps : K) (comb : ℕ → ℕ → K) (r c : ℕ) : K :=
  comb r c / (∑ k ∈ Finset.range hcMult, comb r k + eps)

/-- `comb / (comb.sum(dim=-2, keepdim=True) + eps)` -/
def divideColumns (hcMult : ℕ) (eps : K) (comb : ℕ → ℕ → K) (r c : ℕ) : K :=
  comb r c / (∑ k ∈ Finset.range hcMult, comb k c + eps)

/-- `hc_split_sinkhorn`, the matrix. -/
def sinkhorn (hcMult : ℕ) (sinkhornIters : ℤ) (eps : K) (mixes scale base : ℕ → K) : ℕ → ℕ → K :=
  let combStart := 2 * hcMult
  let scores (r c : ℕ) :=
    mixes (combStart + r * hcMult + c) * scale 2 + base (combStart + r * hcMult + c)
  let comb (r c : ℕ) :=
    e.exp (scores r c) / ∑ k ∈ Finset.range hcMult, e.exp (scores r k) + eps
  loop (List.range (sinkhornIters - 1).toNat)
    (fun _ comb => divideColumns hcMult eps (divideRows hcMult eps comb))
    (divideColumns hcMult eps comb)

/-- `_hc_pre_impl` -/
def Block.hcPreImpl (block : Block K) (sched : Schedule) (w : Weights K) (x : ℕ → K) : Pre K :=
  let n := block.hcMult * block.dim
  let rsqrt := 1 / sqrt ((∑ i ∈ Finset.range n, x i * x i) / n + block.normEps)
  let mixes (r : ℕ) := (∑ i ∈ Finset.range n, x i * w.hcFn (r * n + i)) * rsqrt
  if block.preCuda ∧ block.hcMult = 4 then
    hcSplitPreKernel e sched (block.hcSinkhornIters - 1).toNat block.dim block.hcEps mixes w.hcScale
      w.hcBase x
  else
    let pre (i : ℕ) := sigmoid e (mixes i * w.hcScale 0 + w.hcBase i) + block.hcEps
    { y d := ∑ h ∈ Finset.range block.hcMult, pre h * x (h * block.dim + d)
      post i := 2 * sigmoid e
        (mixes (block.hcMult + i) * w.hcScale 1 + w.hcBase (block.hcMult + i))
      comb := sinkhorn e block.hcMult block.hcSinkhornIters block.hcEps mixes w.hcScale w.hcBase }

/-- `hc_pre`, over memory that is not initialised. -/
def Block.hcPre (block : Block K) (sched : Schedule) (w : Weights K) (seqlen : ℕ)
    (empty : ℕ → ℕ → Pre K) (x : Rows K) : ℕ → ℕ → Pre K :=
  let chunk := block.hcPreChunkTokens
  if 0 < chunk ∧ chunk < seqlen then
    loop ((List.range seqlen).filter (chunk ∣ ·)) (fun start out b t =>
      let stop := min (start + chunk) seqlen
      let part (b i : ℕ) := x b (start + i)
      if start ≤ t ∧ t < stop then block.hcPreImpl e sqrt sched w (part b (t - start)) else out b t)
      empty
  else fun b t => block.hcPreImpl e sqrt sched w (x b t)

/-- `hc_post`, for a token. -/
def Block.hcPost (block : Block K) (x residual : ℕ → K) (pre : Pre K) : ℕ → K :=
  if block.postCuda ∧ block.hcMult = 4 then hcPostKernel block.dim x residual pre.post pre.comb
  else fun p =>
    let j := p / block.dim
    let d := p % block.dim
    pre.post j * x d + ∑ i ∈ Finset.range block.hcMult, pre.comb i j * residual (i * block.dim + d)

/-- One half of `Block.forward`: its weights, and what stands between `hc_pre` and `hc_post`. -/
structure Half (K : Type) where
  weights : Weights K
  layer : Rows K → Rows K

/-- `Block.forward` of all blocks, half by half: the streams, and what each layer gave. -/
def Block.forward (block : Block K) (sched : Schedule) (seqlen : ℕ) (empty : ℕ → ℕ → Pre K) :
    List (Half K) → Rows K → Rows K × List (Rows K)
  | [], residual => (residual, [])
  | half :: halves, residual =>
    let pre := block.hcPre e sqrt sched half.weights seqlen empty residual
    let x := half.layer fun b t => (pre b t).y
    let rest := block.forward sched seqlen empty halves fun b t =>
      block.hcPost (x b t) (residual b t) (pre b t)
    (rest.1, x :: rest.2)

/-- The block without kernels and without chunks. -/
def Block.plain (block : Block K) : Block K :=
  { block with hcPreChunkTokens := 0, preCuda := false, postCuda := false }

end Python

section Sinkhorn

variable {e} {sched : Schedule} {eps : K}

omit [LinearOrder K] in
lemma divideLines_place {place : ℕ → ℕ → ℕ}
    (apart : ∀ t < 4, ∀ k < 4, ∀ t' < 4, ∀ k' < 4, place t k = place t' k' → t = t' ∧ k = k')
    (comb : ℕ → K) {t k : ℕ} (thread : t < 4) (here : k < 4) :
    divideLines sched place eps comb (place t k) =
      comb (place t k) / (∑ i ∈ Finset.range 4, comb (place t i) + eps) := by
  have order := sched.perm (List.range 4)
  have line : (fun k : Fin 4 => divideLines sched place eps comb (place t k)) =
      fun k : Fin 4 => comb (place t k) / (∑ i : Fin 4, comb (place t i) + eps) := by
    refine loop_part (fun comb (k : Fin 4) => comb (place t k))
      (fun v k => v k / (∑ i : Fin 4, v i + eps)) _ (fun comb => ?_) (fun i member ne comb => ?_)
      (order.nodup_iff.mpr List.nodup_range) (order.mem_iff.mpr (List.mem_range.mpr thread)) comb
    -- the thread of the line writes each of its places once, and the others write elsewhere
    · funext k
      dsimp only
      rw [← Finset.sum_range fun i => comb (place t i), ← loop_counter]
      generalize loop (List.range 4) (fun k sum => sum + comb (place t k)) 0 + eps = total
      refine loop_part (fun comb => comb (place t k)) (· / total)
        (fun k comb => Function.update comb (place t k) (comb (place t k) / total))
        (fun comb => Function.update_self ..) (fun i member ne comb => ?_) List.nodup_range
        (List.mem_range.mpr k.isLt) comb
      refine Function.update_of_ne (fun same => ne ?_) _ _
      exact (apart t thread k k.isLt t thread i (List.mem_range.mp member) same).2.symm
    · funext k
      refine loop_frame (fun comb => comb (place t k)) (fun c member' comb => ?_) comb
      refine Function.update_of_ne (fun same => ne ?_) _ _
      exact (apart t thread k k.isLt i (List.mem_range.mp (order.mem_iff.mp member)) c
        (List.mem_range.mp member') same).1.symm
  rw [Finset.sum_range]
  exact congrFun line ⟨k, here⟩

/-- The sixteen places hold the matrix. -/
def Laid (comb : ℕ → K) (m : ℕ → ℕ → K) : Prop := ∀ r < 4, ∀ c < 4, comb (r * 4 + c) = m r c

omit [LinearOrder K] in
lemma Laid.rows {comb : ℕ → K} {m : ℕ → ℕ → K} (laid : Laid comb m) :
    Laid (divideLines sched (fun tid k => tid * 4 + k) eps comb) (divideRows 4 eps m) := by
  intro r row c column
  have place : divideLines sched (fun tid k => tid * 4 + k) eps comb (r * 4 + c) = _ :=
    divideLines_place (fun _ _ _ _ _ _ _ _ _ => by omega) comb row column
  rw [place, laid r row c column, divideRows]
  refine congrArg (fun sum => m r c / (sum + eps)) (Finset.sum_congr rfl fun k member => ?_)
  exact laid r row k (Finset.mem_range.mp member)

omit [LinearOrder K] in
lemma Laid.columns {comb : ℕ → K} {m : ℕ → ℕ → K} (laid : Laid comb m) :
    Laid (divideLines sched (fun tid k => k * 4 + tid) eps comb) (divideColumns 4 eps m) := by
  intro r row c column
  have place : divideLines sched (fun tid k => k * 4 + tid) eps comb (r * 4 + c) = _ :=
    divideLines_place (fun _ _ _ _ _ _ _ _ _ => by omega) comb column row
  rw [place, laid r row c column, divideColumns]
  refine congrArg (fun sum => m r c / (sum + eps)) (Finset.sum_congr rfl fun k member => ?_)
  exact laid k (Finset.mem_range.mp member) c column

lemma softmax_shifted (scores : ℕ → K) (n : ℕ) (m : K) (c : ℕ) :
    e.exp (scores c - m) / ∑ k ∈ Finset.range n, e.exp (scores k - m) =
      e.exp (scores c) / ∑ k ∈ Finset.range n, e.exp (scores k) := by
  have shift : ∀ k, e.exp (scores k) = e.exp (scores k - m) * e.exp m := fun k => by
    rw [← e.add, sub_add_cancel]
  simp only [shift]
  rw [← Finset.sum_mul, mul_div_mul_right _ _ (e.pos m).ne']

end Sinkhorn

section Agree

variable {e sqrt} {sched : Schedule} {block : Block K} {w : Weights K}

/-- Two results of `hc_pre` are the same where they are read. -/
structure Pre.Same (hcMult : ℕ) (p q : Pre K) : Prop where
  y : p.y = q.y
  post : p.post = q.post
  comb : ∀ r < hcMult, ∀ c < hcMult, p.comb r c = q.comb r c

lemma hcSplitPreKernel_same (iters : ℤ) (dim : ℕ) (eps : K) (mixes scale base x : ℕ → K) :
    (hcSplitPreKernel e sched (iters - 1).toNat dim eps mixes scale base x).Same 4
      { y d := ∑ h ∈ Finset.range 4,
          (sigmoid e (mixes h * scale 0 + base h) + eps) * x (h * dim + d)
        post i := 2 * sigmoid e (mixes (4 + i) * scale 1 + base (4 + i))
        comb := sinkhorn e 4 iters eps mixes scale base } where
  y := funext fun d => loop_counter ..
  post := rfl
  comb := by
    refine loop_rel (R := Laid) (fun _ _ _ laid => laid.rows.columns) _ (Laid.columns ?_)
    intro r row c column
    have here : (r * 4 + c) / 4 = r := by omega
    have there : r * 4 + c - r * 4 = c := by omega
    simp only [here, there, loop_counter]
    rw [softmax_shifted fun c =>
      mixes (8 + r * 4 + c) * scale 2 + base (8 + r * 4 + c)]

lemma hcPreImpl_same (x : ℕ → K) : (block.hcPreImpl e sqrt sched w x).Same block.hcMult
    (block.plain.hcPreImpl e sqrt sched w x) := by
  by_cases cuda : block.preCuda ∧ block.hcMult = 4
  · have four := cuda.2
    unfold Block.hcPreImpl Block.plain
    simp only [if_pos cuda, Bool.false_eq_true, false_and, if_false]
    rw [four]
    exact hcSplitPreKernel_same ..
  · unfold Block.hcPreImpl Block.plain
    simp only [if_neg cuda, Bool.false_eq_true, false_and, if_false]
    exact ⟨rfl, rfl, fun _ _ _ _ => rfl⟩

lemma hcPre_same {seqlen : ℕ} (empty : ℕ → ℕ → Pre K) (x : Rows K) (b : ℕ) {t : ℕ}
    (inside : t < seqlen) :
    (block.hcPre e sqrt sched w seqlen empty x b t).Same block.hcMult
      (block.plain.hcPreImpl e sqrt sched w (x b t)) := by
  unfold Block.hcPre
  dsimp only
  split_ifs with chunked
  · obtain ⟨pos, -⟩ := chunked
    generalize block.hcPreChunkTokens = chunk at pos
    have place := Nat.div_add_mod' t chunk
    have lt := Nat.mod_lt t pos
    -- only the chunk of the token writes its place
    have apart : ∀ start, chunk ∣ start → start ≤ t → t < start + chunk →
        start = t / chunk * chunk := by
      rintro _ ⟨k, rfl⟩ le below
      rw [Nat.mul_comm] at le below ⊢
      rw [Nat.div_eq_of_lt_le le (by rwa [Nat.succ_mul])]
    have last : loop ((List.range seqlen).filter (chunk ∣ ·)) (fun start out b t =>
        if start ≤ t ∧ t < min (start + chunk) seqlen then
          block.hcPreImpl e sqrt sched w (x b (start + (t - start))) else out b t) empty b t =
        block.hcPreImpl e sqrt sched w (x b t) := by
      refine loop_part (fun out : ℕ → ℕ → Pre K => out b t) (fun _ => _) _ (fun out => ?_)
        (fun start member ne out => if_neg fun holds => ne ?_) (List.nodup_range.filter _)
        (j := t / chunk * chunk) (List.mem_filter.mpr ⟨List.mem_range.mpr ?_, ?_⟩) empty
      · rw [if_pos (by omega), Nat.add_sub_cancel' (by omega)]
      · exact apart start (of_decide_eq_true (List.mem_filter.mp member).2) holds.1
          (holds.2.trans_le (Nat.min_le_left ..))
      · omega
      · exact decide_eq_true (Nat.dvd_mul_left ..)
    rw [last]
    exact hcPreImpl_same _
  · exact hcPreImpl_same _

lemma hcPreFloatKernel_same (four : block.hcMult = 4) (iters : block.hcSinkhornIters = 20)
    (eps : block.hcEps = 1 / 1000000) (eps' : block.normEps = 1 / 1000000) (x : ℕ → K) :
    (hcPreFloatKernel e sqrt sched block.dim w x).Same block.hcMult
      (block.plain.hcPreImpl e sqrt sched w x) := by
  have warps (v : ℕ → K) : warpSum 4 v 0 = ∑ lane ∈ Finset.range 8, v lane := warpSum_eq 3 v
  have lanes (v : ℕ → K) : warpSum 16 v 0 = ∑ lane ∈ Finset.range 32, v lane := warpSum_eq 5 v
  have threads (n k tid : ℕ) (f : ℕ → K) : loop (strided k n tid) (fun i s => s + f i) 0 =
      ((strided k n tid).map f).sum := (loop_sum ..).trans (zero_add _)
  have total : warpSum 4 (fun lane => if lane < 8 then warpSum 16 (fun l =>
      loop (strided 256 (4 * block.dim) (lane * 32 + l)) (fun i s => s + x i * x i) 0) 0 else 0) 0 =
        ∑ i ∈ Finset.range (4 * block.dim), x i * x i := by
    have all := sum_parts (fun tid => ((strided 256 (4 * block.dim) tid).map fun i =>
      x i * x i).sum) 8 32
    have places := sum_strided (show 0 < 256 by decide) (4 * block.dim) fun i => x i * x i
    simp only [warps, lanes, threads]
    rw [← places, ← all]
    exact Finset.sum_congr rfl fun warp lt => if_pos (Finset.mem_range.mp lt)
  have mixes (r : ℕ) : warpSum 16 (fun lane => loop (strided 32 (4 * block.dim) lane)
      (fun i dot => dot + w.hcFn (r * (4 * block.dim) + i) * x i) 0) 0 =
        ∑ i ∈ Finset.range (4 * block.dim), x i * w.hcFn (r * (4 * block.dim) + i) := by
    simp only [lanes, threads]
    rw [sum_strided (by decide)]
    exact Finset.sum_congr rfl fun i _ => mul_comm ..
  unfold hcPreFloatKernel Block.hcPreImpl Block.plain
  dsimp only
  rw [total]
  simp only [mixes, four, iters, eps, eps', Bool.false_eq_true, false_and, if_false]
  exact hcSplitPreKernel_same 20 ..

omit [LinearOrder K] in
lemma hcPost_plain (x residual : ℕ → K) (pre : Pre K) :
    block.hcPost x residual pre = block.plain.hcPost x residual pre := by
  by_cases cuda : block.postCuda ∧ block.hcMult = 4
  · have four := cuda.2
    unfold Block.hcPost Block.plain
    simp only [if_pos cuda, Bool.false_eq_true, false_and, if_false]
    funext p
    rw [four]
    exact loop_adds ..
  · unfold Block.hcPost Block.plain
    simp only [if_neg cuda, Bool.false_eq_true, false_and, if_false]

/-- Python's plain path, the kernels of the extension, any cut into chunks, and the kernels of the
engine give the same, in any order of the threads. -/
theorem hc_agrees (block : Block K) (w : Weights K) :
    (∀ seqlen empty x b, ∀ t < seqlen, (block.hcPre e sqrt sched w seqlen empty x b t).Same
      block.hcMult (block.plain.hcPreImpl e sqrt sched w (x b t))) ∧
    (block.hcMult = 4 → block.hcSinkhornIters = 20 → block.hcEps = 1 / 1000000 →
      block.normEps = 1 / 1000000 → ∀ h4Rows row,
        (hcPreFloatRowsKernel e sqrt sched block.dim w h4Rows row).Same block.hcMult
          (block.plain.hcPreImpl e sqrt sched w fun i => h4Rows (row * 4 * block.dim + i))) ∧
    ∀ x residual pre, block.hcPost x residual pre = block.plain.hcPost x residual pre ∧
      (block.hcMult = 4 → hcPostKernel block.dim x residual pre.post pre.comb =
        block.plain.hcPost x residual pre) := by
  refine ⟨fun seqlen empty x b t inside => hcPre_same empty x b inside,
    fun four iters eps eps' h4Rows row => hcPreFloatKernel_same four iters eps eps' _,
    fun x residual pre => ⟨hcPost_plain .., fun four => ?_⟩⟩
  unfold Block.hcPost Block.plain hcPostKernel
  simp only [Bool.false_eq_true, false_and, if_false, four]
  exact funext fun p => loop_adds ..

end Agree

section Bounded

variable [IsStrictOrderedRing K] {e sqrt} {sched : Schedule} {block : Block K} {n : ℕ} {eps : K}

/-- The entries of the matrix are positive. -/
def Positive (n : ℕ) (m : ℕ → ℕ → K) : Prop := ∀ r < n, ∀ c < n, 0 < m r c

lemma Positive.sum {m : ℕ → ℕ → K} (positive : Positive n m) {r c : ℕ} (row : r < n)
    (column : c < n) : 0 < ∑ k ∈ Finset.range n, m r k ∧ 0 < ∑ k ∈ Finset.range n, m k c :=
  ⟨Finset.sum_pos (fun k here => positive r row k (Finset.mem_range.mp here))
    ⟨r, Finset.mem_range.mpr row⟩,
    Finset.sum_pos (fun k here => positive k (Finset.mem_range.mp here) c column)
      ⟨r, Finset.mem_range.mpr row⟩⟩

lemma Positive.rows (nonneg : 0 ≤ eps) {m : ℕ → ℕ → K} (positive : Positive n m) :
    Positive n (divideRows n eps m) := fun r row c column =>
  div_pos (positive r row c column)
    (add_pos_of_pos_of_nonneg (positive.sum row column).1 nonneg)

lemma Positive.columns (nonneg : 0 ≤ eps) {m : ℕ → ℕ → K} (positive : Positive n m) :
    Positive n (divideColumns n eps m) ∧
      ∀ c < n, ∑ r ∈ Finset.range n, divideColumns n eps m r c ≤ 1 := by
  refine ⟨fun r row c column => div_pos (positive r row c column)
    (add_pos_of_pos_of_nonneg (positive.sum row column).2 nonneg), fun c column => ?_⟩
  have total := (positive.sum column column).2
  unfold divideColumns
  rw [← Finset.sum_div, div_le_one (add_pos_of_pos_of_nonneg total nonneg)]
  exact le_add_of_nonneg_right nonneg

lemma sinkhorn_columns (nonneg : 0 ≤ eps) (iters : ℤ) (mixes scale base : ℕ → K) :
    Positive n (sinkhorn e n iters eps mixes scale base) ∧
      ∀ c < n, ∑ r ∈ Finset.range n, sinkhorn e n iters eps mixes scale base r c ≤ 1 := by
  refine loop_rel (R := fun m (_ : Unit) => Positive n m ∧
    ∀ c < n, ∑ r ∈ Finset.range n, m r c ≤ 1) (g := fun _ t => t) (t := ())
    (fun _ _ _ sofar => (sofar.1.rows nonneg).columns nonneg) _ (Positive.columns nonneg ?_)
  intro r row c column
  refine add_pos_of_pos_of_nonneg (div_pos (e.pos _) ?_) nonneg
  exact Finset.sum_pos (fun k _ => e.pos _) ⟨r, Finset.mem_range.mpr row⟩

lemma sigmoid_mem (v : K) : 0 < sigmoid e v ∧ sigmoid e v ≤ 1 := by
  have weight := e.pos (-v)
  have total : 0 < 1 + e.exp (-v) := add_pos one_pos weight
  exact ⟨div_pos one_pos total, (div_le_one total).mpr (le_add_of_nonneg_right weight.le)⟩

lemma hcPost_bounded {pre : Pre K} {w : Weights K} {x residual y : ℕ → K} {B : K}
    (nonneg : 0 ≤ block.hcEps)
    (same : pre.Same block.hcMult (block.plain.hcPreImpl e sqrt sched w y))
    {d : ℕ} (column : d < block.dim)
    (sofar : ∀ i < block.hcMult, |residual (i * block.dim + d)| ≤ B) {j : ℕ}
    (stream : j < block.hcMult) :
    |block.hcPost x residual pre (j * block.dim + d)| ≤ B + 2 * |x d| := by
  have bound : 0 ≤ B := (abs_nonneg _).trans (sofar j stream)
  have made : (∃ v, (block.plain.hcPreImpl e sqrt sched w y).post j = 2 * sigmoid e v) ∧
      ∃ mixes, (block.plain.hcPreImpl e sqrt sched w y).comb =
        sinkhorn e block.hcMult block.hcSinkhornIters block.hcEps mixes w.hcScale w.hcBase := by
    unfold Block.hcPreImpl Block.plain
    simp only [Bool.false_eq_true, false_and, if_false]
    exact ⟨⟨_, rfl⟩, _, rfl⟩
  obtain ⟨⟨v, post⟩, mixes, comb⟩ := made
  obtain ⟨positive, sums⟩ := sinkhorn_columns (e := e) (n := block.hcMult) nonneg
    block.hcSinkhornIters mixes w.hcScale w.hcBase
  rw [← comb] at positive sums
  obtain ⟨above, below⟩ := sigmoid_mem (e := e) v
  have given : |pre.post j * x d| ≤ 2 * |x d| := by
    rw [same.post, post, abs_mul, abs_of_pos (mul_pos two_pos above)]
    exact mul_le_mul_of_nonneg_right (mul_le_of_le_one_right zero_le_two below) (abs_nonneg _)
  have mixed : |∑ i ∈ Finset.range block.hcMult, pre.comb i j * residual (i * block.dim + d)| ≤ B :=
    calc _ ≤ ∑ i ∈ Finset.range block.hcMult, |pre.comb i j * residual (i * block.dim + d)| :=
          Finset.abs_sum_le_sum_abs ..
      _ ≤ ∑ i ∈ Finset.range block.hcMult,
          (block.plain.hcPreImpl e sqrt sched w y).comb i j * B := by
        refine Finset.sum_le_sum fun i member => ?_
        have row := Finset.mem_range.mp member
        rw [same.comb i row j stream, abs_mul, abs_of_pos (positive i row j stream)]
        exact mul_le_mul_of_nonneg_left (sofar i row) (positive i row j stream).le
      _ ≤ B := by
        rw [← Finset.sum_mul]
        exact mul_le_of_le_one_left bound (sums j stream)
  rw [hcPost_plain]
  unfold Block.hcPost Block.plain
  simp only [Bool.false_eq_true, false_and, if_false, mul_add_div_of_lt column,
    Nat.mul_add_mod_of_lt column]
  rw [add_comm B]
  exact (abs_add_le _ _).trans (add_le_add given mixed)

/-- Through any number of layers, whatever they compute, a stream grows by no more than twice what
the layers give at its token and column. -/
theorem forward_bounded (nonneg : 0 ≤ block.hcEps) {seqlen : ℕ} (empty : ℕ → ℕ → Pre K)
    (halves : List (Half K)) {h : Rows K} {B : K} {b t d : ℕ} (inside : t < seqlen)
    (column : d < block.dim) (start : ∀ i < block.hcMult, |h b t (i * block.dim + d)| ≤ B) :
    ∀ i < block.hcMult,
      |(block.forward e sqrt sched seqlen empty halves h).1 b t (i * block.dim + d)| ≤
        B + 2 * ((block.forward e sqrt sched seqlen empty halves h).2.map
          fun x => |x b t d|).sum := by
  induction halves generalizing h B with
  | nil =>
    intro i stream
    rw [Block.forward, List.map_nil, List.sum_nil, mul_zero, add_zero]
    exact start i stream
  | cons half halves ih =>
    intro i stream
    rw [Block.forward, List.map_cons, List.sum_cons, mul_add, ← add_assoc]
    refine ih (fun j stream => ?_) i stream
    exact hcPost_bounded nonneg (hcPre_same empty h b inside) column start stream

/-- Two layers, the second of which undoes the first, in chunks of two of three tokens. -/
theorem forward_bounded_two :
    let block : Block ℝ := ⟨1, 4, 20, 1 / 1000000, 1 / 1000000, 2, true, false⟩
    let w : Weights ℝ := ⟨fun i => i, fun _ => 1, fun i => -i⟩
    let run := block.forward ⟨Real.exp, Real.exp_pos, Real.exp_add⟩ Real.sqrt
      ⟨fun work => work, fun work => List.Perm.refl work⟩ 3 (fun _ _ => ⟨0, 0, 0⟩)
      [⟨w, fun x => x⟩, ⟨w, fun x b t d => -x b t d⟩] fun _ _ _ => 1
    |run.1 0 2 (3 * 1 + 0)| ≤ 1 + 2 * (run.2.map fun x => |x 0 2 0|).sum := by
  intro block w run
  have nonneg : (0 : ℝ) ≤ 1 / 1000000 := by norm_num
  exact forward_bounded nonneg _ _ (by decide) Nat.one_pos
    (fun _ _ => (abs_one (α := ℝ)).le) 3 (by decide)

end Bounded

end PocketMoE.Engine.HyperConnections
