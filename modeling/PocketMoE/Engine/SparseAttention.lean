import Mathlib.Algebra.BigOperators.Field
import Mathlib.Analysis.Complex.Exponential
import PocketMoE.Lib.BlockReduce
import PocketMoE.Lib.BlockScale
import PocketMoE.Lib.Softmax
import PocketMoE.Lib.TileGrid

/-!
# Sparse attention

Model of the kernels `prefill_sparse_attention_indexed_kernel`,
`prefill_sparse_attention_headpair_kernel`, `prefill_sparse_attention_headpair_serial_kernel` and
`indexed_cached_single_token_attention_kernel` (`cuda_ops.cu`), and of the fallback of `sparse_attn`
(`kernels/ops.py`). A kernel is the list of what its blocks store; the place of an entry is its
token, head and column.

All give `attention`: the mean of the rows that the indices of a token name, by softmax weights
with a sink beside them (`sparse_attention_agrees`).
-/

namespace PocketMoE.Engine.SparseAttention

open PocketMoE.Lib PocketMoE.Softmax

variable {K : Type} [Field K] [LinearOrder K]

/-- The arguments of all variants: the queries of the heads of each token, the cached rows, a sink
for each head and a row of indices for each token. -/
structure Args (K : Type) where
  tokens : ℕ
  heads : ℕ
  kvLen : ℕ
  topk : ℕ
  dim : ℕ
  q : ℕ → K
  kv : ℕ → K
  attnSink : ℕ → K
  topkIdxs : ℕ → ℤ
  below : ∀ i, topkIdxs i < kvLen
  scale : K

variable (e : Exponential K) (args : Args K)

/-- The place of an entry of a query or of the output. -/
abbrev Cell := ℕ × ℕ × ℕ

section Spec

/-- The score of an index of a token: minus infinity for one that names no row. -/
def score (token head t : ℕ) : WithBot K :=
  let idx := args.topkIdxs (token * args.topk + t)
  if 0 ≤ idx then
    ((∑ d ∈ Finset.range args.dim, args.q ((token * args.heads + head) * args.dim + d) *
      args.kv (idx.toNat * args.dim + d)) * args.scale : K)
  else ⊥

/-- The mean of the rows by the weights of their scores, the sink beside them. -/
def attention (p : Cell) : K :=
  let (token, head, d) := p
  (∑ t ∈ Finset.range args.topk, weight e.exp (score args token head t) *
      args.kv ((args.topkIdxs (token * args.topk + t)).toNat * args.dim + d)) /
    (∑ t ∈ Finset.range args.topk, weight e.exp (score args token head t) +
      e.exp (args.attnSink head))

end Spec

section Kernels

/-- `idx >= 0 && idx < kv_len` -/
def inCache (idx : ℤ) : Bool := decide (0 ≤ idx ∧ idx < args.kvLen)

/-- The dot product of a query and a cached row, by one thread. -/
def dot (q : ℕ → K) (idx : ℤ) : K :=
  loop (List.range args.dim) (fun d dot => dot + q d * args.kv (idx.toNat * args.dim + d)) 0

/-- The weighted sum of the rows that are in the cache, by one thread. -/
def mix (inside : ℤ → Bool) (idx : ℕ → ℤ) (w : ℕ → K) (d : ℕ) : K :=
  loop (List.range args.topk) (fun t acc =>
    if inside (idx t) then acc + w t * args.kv ((idx t).toNat * args.dim + d) else acc) 0

/-- A thread's part of the denominator. -/
def localDenom (w : ℕ → K) (tid : ℕ) : K :=
  loop (strided 256 args.topk tid) (fun t s => s + w t) 0

/-- The stores of a block for the row of a head: the threads take the columns in turn. -/
def rowStores (token head : ℕ) (value : ℕ → K) : List (Cell × K) :=
  ((List.range 256).flatMap (strided 256 args.dim)).map fun d => ((token, head, d), value d)

/-- A head in `prefill_sparse_attention_indexed_kernel` and in the serial head-pair kernel: the
maximum starts at the sink, whose weight is added after the sum. -/
def serialHead (token head : ℕ) : ℕ → K :=
  let q (d : ℕ) := args.q ((token * args.heads + head) * args.dim + d)
  let idx (t : ℕ) := args.topkIdxs (token * args.topk + t)
  let sinkLogit : WithBot K := args.attnSink head
  let logit (t : ℕ) : WithBot K :=
    if inCache args (idx t) then (dot args q (idx t) * args.scale : K) else ⊥
  let maxLogit := blockReduce max 256 args.topk (fun t => inCache args (idx t)) sinkLogit logit
  let w (t : ℕ) := e.shifted (logit t) maxLogit
  let denom := treeReduce (· + ·) 128 (localDenom args w) 0 + e.shifted sinkLogit maxLogit
  let invDenom := 1 / denom
  fun d => mix args (inCache args) idx w d * invDenom

/-- A head in `prefill_sparse_attention_headpair_kernel`: a warp for each index, the sink joins the
maximum after the reduction, and its weight is added by thread 0. -/
def headpairHead (token head : ℕ) : ℕ → K :=
  let q (d : ℕ) := args.q ((token * args.heads + head) * args.dim + d)
  let idx (t : ℕ) := args.topkIdxs (token * args.topk + t)
  let acc (t lane : ℕ) : K := loop (strided 32 args.dim lane)
    (fun d acc => acc + q d * args.kv ((idx t).toNat * args.dim + d)) 0
  let score (t : ℕ) : WithBot K :=
    if inCache args (idx t) then (warpSum 16 (acc t) 0 * args.scale : K) else ⊥
  let maxScore := max (blockReduce max 256 args.topk (fun _ => true) ⊥ score)
    (args.attnSink head : WithBot K)
  let w (t : ℕ) := e.shifted (score t) maxScore
  let denom := treeReduce (· + ·) 128 (fun tid =>
    if tid = 0 then localDenom args w tid + e.shifted (args.attnSink head) maxScore
    else localDenom args w tid) 0
  fun d => mix args (inCache args) idx w d / denom

/-- `prefill_sparse_attention_indexed_kernel` at `blockIdx` (head, token). -/
def indexedBlock (block : ℕ × ℕ) : List (Cell × K) :=
  rowStores args block.2 block.1 (serialHead e args block.2 block.1)

/-- A block of a head-pair kernel: the token and the pair of its number, then the heads of the pair
that there are. -/
def pairBlock (value : ℕ → ℕ → ℕ → K) (bsp : ℕ) : List (Cell × K) :=
  let headPairs := (args.heads + 1) / 2
  let pair := bsp % headPairs
  let s := bsp / headPairs % args.tokens
  let h0 := pair * 2
  let h1 := h0 + 1
  let hasH1 := decide (h1 < args.heads)
  rowStores args s h0 (value s h0) ++ if hasH1 then rowStores args s h1 (value s h1) else []

/-- What the stores of the blocks leave in the output, in some order of the blocks. -/
def launch {ι : Type} (block : ι → List (Cell × K)) (order : List ι) (y : Cell → K) : Cell → K :=
  loop (order.flatMap block) (fun s y => Function.update y s.1 s.2) y

/-- `prefill_sparse_attention_indexed_cuda` -/
def prefillSparseAttentionIndexed (order : List (ℕ × ℕ)) (y : Cell → K) : Cell → K :=
  launch (indexedBlock e args) order y

/-- `prefill_sparse_attention_headpair_cuda` -/
def prefillSparseAttentionHeadpair (order : List ℕ) (y : Cell → K) : Cell → K :=
  launch (pairBlock args (headpairHead e args)) order y

/-- `prefill_sparse_attention_headpair_serial_cuda` -/
def prefillSparseAttentionHeadpairSerial (order : List ℕ) (y : Cell → K) : Cell → K :=
  launch (pairBlock args (serialHead e args)) order y

/-- `indexed_cached_single_token_attention_kernel` for a head, of the queries and the indices of one
token. Only the sign of an index is looked at, and minus infinity takes part in the maximum. -/
def singleTokenBlock (q : ℕ → K) (indices : ℕ → ℤ) (head : ℕ) : ℕ → K :=
  let qHead (i : ℕ) := q (head * args.dim + i)
  let sinkLogit : WithBot K := args.attnSink head
  let logit (t : ℕ) : WithBot K :=
    if 0 ≤ indices t then (dot args qHead (indices t) * args.scale : K) else ⊥
  let maxLogit := blockReduce max 256 args.topk (fun _ => true) sinkLogit logit
  let w (t : ℕ) := e.shifted (logit t) maxLogit
  let denom := treeReduce (· + ·) 128 (localDenom args w) 0 + e.shifted sinkLogit maxLogit
  let invDenom := 1 / denom
  fun d => mix args (fun idx => decide (0 ≤ idx)) indices w d * invDenom

/-- `indexed_cached_single_token_attention_cuda` on the queries and the indices of a token. -/
def indexedCachedSingleTokenAttention (token : ℕ) (order : List ℕ) (y : Cell → K) : Cell → K :=
  launch (fun head => rowStores args 0 head (singleTokenBlock e args
    (fun i => args.q (token * args.heads * args.dim + i))
    (fun t => args.topkIdxs (token * args.topk + t)) head)) order y

end Kernels

section Python

/-- `torch.softmax` over a row with minus infinities. -/
def softmax (scores : List (WithBot K)) : List K :=
  scores.map fun s => weight e.exp s / (scores.map (weight e.exp)).sum

/-- The fallback of `sparse_attn`, at an entry. Indices below 0 gather row 0 and are masked. -/
def sparseAttn (p : Cell) : K :=
  let (s, h, d) := p
  let topkIdx (t : ℕ) := args.topkIdxs (s * args.topk + t)
  let gathered (t d : ℕ) := args.kv ((max (topkIdx t) 0).toNat * args.dim + d)
  let scores := (List.range args.topk).map fun t =>
    let scores := (∑ d ∈ Finset.range args.dim,
      args.q ((s * args.heads + h) * args.dim + d) * gathered t d) * args.scale
    if 0 ≤ topkIdx t then (scores : WithBot K) else ⊥
  let weights := (softmax e (scores ++ [(args.attnSink h : WithBot K)])).take args.topk
  (List.zipWith (fun w t => w * gathered t d) weights (List.range args.topk)).sum

end Python

section Heads

variable {e args}

omit [LinearOrder K] in
lemma dot_eq (q : ℕ → K) (idx : ℤ) :
    dot args q idx = ∑ d ∈ Finset.range args.dim, q d * args.kv (idx.toNat * args.dim + d) := by
  unfold dot
  rw [loop_sum, zero_add]
  rfl

omit [LinearOrder K] in
lemma warpDot_eq (q : ℕ → K) (idx : ℤ) :
    warpSum 16 (fun lane => loop (strided 32 args.dim lane)
      (fun d acc => acc + q d * args.kv (idx.toNat * args.dim + d)) 0) 0 =
        ∑ d ∈ Finset.range args.dim, q d * args.kv (idx.toNat * args.dim + d) := by
  have lanes (v : ℕ → K) : warpSum 16 v 0 = ∑ lane ∈ Finset.range 32, v lane := warpSum_eq 5 v
  rw [lanes]
  simp only [loop_sum, zero_add]
  exact sum_strided (by decide) args.dim _

omit [Field K] [LinearOrder K] in
lemma inCache_eq (i : ℕ) :
    inCache args (args.topkIdxs i) = decide (0 ≤ args.topkIdxs i) := by
  have := args.below i
  unfold inCache
  simp only [this, and_true]

omit [LinearOrder K] in
lemma mix_eq {inside : ℤ → Bool} {idx : ℕ → ℤ} {w : ℕ → K}
    (zero : ∀ t, inside (idx t) = false → w t = 0) (d : ℕ) :
    mix args inside idx w d =
      ∑ t ∈ Finset.range args.topk, w t * args.kv ((idx t).toNat * args.dim + d) := by
  unfold mix
  rw [loop_range_sum (fun acc => acc)
    (fun t => w t * args.kv ((idx t).toNat * args.dim + d)) _ (fun t _ acc => ?_), zero_add]
  by_cases here : inside (idx t) = true
  · rw [if_pos here]
  · rw [if_neg here, zero t (Bool.eq_false_iff.mpr here), zero_mul, add_zero]

omit [LinearOrder K] in
lemma denom_eq (w : ℕ → K) :
    treeReduce (· + ·) 128 (localDenom args w) 0 = ∑ t ∈ Finset.range args.topk, w t := by
  have rounds : treeReduce (· + ·) 128 (localDenom args w) 0 =
      ∑ tid ∈ Finset.range 256, localDenom args w tid := treeReduce_sum 8 _
  rw [rounds]
  unfold localDenom
  simp only [loop_sum, zero_add]
  exact sum_strided (by decide) args.topk w

omit [LinearOrder K] in
lemma denom_first (w : ℕ → K) (a : K) :
    treeReduce (· + ·) 128 (fun tid =>
      if tid = 0 then localDenom args w tid + a else localDenom args w tid) 0 =
        ∑ t ∈ Finset.range args.topk, w t + a := by
  have rounds (v : ℕ → K) : treeReduce (· + ·) 128 v 0 = ∑ tid ∈ Finset.range 256, v tid :=
    treeReduce_sum 8 v
  have split : ∀ tid, (if tid = 0 then localDenom args w tid + a else localDenom args w tid) =
      localDenom args w tid + if tid = 0 then a else 0 := by
    intro tid
    split_ifs
    · rfl
    · rw [add_zero]
  rw [rounds]
  simp only [split]
  rw [Finset.sum_add_distrib, Finset.sum_ite_eq', if_pos (by decide), ← rounds, denom_eq]

omit [Field K] in
lemma maxLogit_coe {inside : ℕ → Bool} {sink : K} {logit : ℕ → WithBot K} :
    ∃ m : K, blockReduce max 256 args.topk inside (sink : WithBot K) logit = m := by
  have sup : ∀ a b : WithBot K, id (max a b) = id a ⊔ id b := fun _ _ => rfl
  have lub := blockReduce_isLUB sup 8 args.topk inside (sink : WithBot K) logit
  have above : (sink : WithBot K) ≤
      blockReduce max 256 args.topk inside (sink : WithBot K) logit :=
    lub.1 (Set.mem_insert _ _)
  obtain ⟨m, eq⟩ := WithBot.ne_bot_iff_exists.mp
    (ne_bot_of_le_ne_bot WithBot.coe_ne_bot above)
  exact ⟨m, eq.symm⟩

variable (e) in
lemma mean_eq (token head d : ℕ) (m : K) :
    (∑ t ∈ Finset.range args.topk, e.shifted (score args token head t) m *
        args.kv ((args.topkIdxs (token * args.topk + t)).toNat * args.dim + d)) /
      (∑ t ∈ Finset.range args.topk, e.shifted (score args token head t) m +
        e.exp (args.attnSink head - m)) = attention e args (token, head, d) :=
  e.shifted_mean args.topk (score args token head)
    (fun t => args.kv ((args.topkIdxs (token * args.topk + t)).toNat * args.dim + d)) _ m

lemma shifted_zero {token head t : ℕ} {m : WithBot K}
    (out : decide (0 ≤ args.topkIdxs (token * args.topk + t)) = false) :
    e.shifted (score args token head t) m = 0 := by
  unfold score
  simp only
  rw [if_neg (by simpa using out)]
  rfl

lemma serialHead_eq (token head d : ℕ) :
    serialHead e args token head d = attention e args (token, head, d) := by
  have logits : ∀ t, (if inCache args (args.topkIdxs (token * args.topk + t)) = true then
      ((dot args (fun d => args.q ((token * args.heads + head) * args.dim + d))
        (args.topkIdxs (token * args.topk + t)) * args.scale : K) : WithBot K) else ⊥) =
          score args token head t := by
    intro t
    rw [inCache_eq, dot_eq]
    unfold score
    simp only [decide_eq_true_eq]
  unfold serialHead
  simp only [logits]
  have finite : ∃ m : K, blockReduce max 256 args.topk
      (fun t => inCache args (args.topkIdxs (token * args.topk + t)))
      (args.attnSink head : WithBot K) (score args token head) = m := maxLogit_coe
  obtain ⟨m, eq⟩ := finite
  have zero : ∀ t, inCache args (args.topkIdxs (token * args.topk + t)) = false →
      e.shifted (score args token head t) m = 0 := by
    intro t out
    rw [inCache_eq] at out
    exact shifted_zero out
  simp only [eq]
  rw [mix_eq zero, denom_eq, mul_one_div]
  exact mean_eq e token head d m

lemma headpairHead_eq (token head d : ℕ) :
    headpairHead e args token head d = attention e args (token, head, d) := by
  have scores : ∀ t, (if inCache args (args.topkIdxs (token * args.topk + t)) = true then
      ((warpSum 16 (fun lane => loop (strided 32 args.dim lane) (fun d acc =>
        acc + args.q ((token * args.heads + head) * args.dim + d) *
          args.kv ((args.topkIdxs (token * args.topk + t)).toNat * args.dim + d)) 0) 0 *
            args.scale : K) : WithBot K) else ⊥) = score args token head t := by
    intro t
    rw [inCache_eq, warpDot_eq fun d => args.q ((token * args.heads + head) * args.dim + d)]
    unfold score
    simp only [decide_eq_true_eq]
  unfold headpairHead
  simp only [scores]
  have finite : ∃ m : K, max (blockReduce max 256 args.topk (fun _ => true) ⊥
      (score args token head)) (args.attnSink head : WithBot K) = m := by
    obtain ⟨m, eq⟩ := WithBot.ne_bot_iff_exists.mp
      (ne_bot_of_le_ne_bot WithBot.coe_ne_bot (le_max_right _ (args.attnSink head : WithBot K)))
    exact ⟨m, eq.symm⟩
  obtain ⟨m, eq⟩ := finite
  have zero : ∀ t, inCache args (args.topkIdxs (token * args.topk + t)) = false →
      e.shifted (score args token head t) m = 0 := by
    intro t out
    rw [inCache_eq] at out
    exact shifted_zero out
  simp only [eq]
  rw [mix_eq zero, denom_first]
  exact mean_eq e token head d m

lemma singleTokenBlock_eq (token head d : ℕ) :
    singleTokenBlock e args (fun i => args.q (token * args.heads * args.dim + i))
      (fun t => args.topkIdxs (token * args.topk + t)) head d =
        attention e args (token, head, d) := by
  have address (d : ℕ) : token * args.heads * args.dim + (head * args.dim + d) =
      (token * args.heads + head) * args.dim + d := by
    ring
  have logits : ∀ t, (if 0 ≤ args.topkIdxs (token * args.topk + t) then
      ((dot args (fun d => args.q ((token * args.heads + head) * args.dim + d))
        (args.topkIdxs (token * args.topk + t)) * args.scale : K) : WithBot K) else ⊥) =
          score args token head t := by
    intro t
    rw [dot_eq]
    rfl
  unfold singleTokenBlock
  simp only [address, logits]
  have finite : ∃ m : K, blockReduce max 256 args.topk (fun _ => true)
      (args.attnSink head : WithBot K) (score args token head) = m := maxLogit_coe
  obtain ⟨m, eq⟩ := finite
  simp only [eq]
  rw [mix_eq fun t => shifted_zero, denom_eq, mul_one_div]
  exact mean_eq e token head d m

lemma sparseAttn_eq (p : Cell) : sparseAttn e args p = attention e args p := by
  obtain ⟨token, head, d⟩ := p
  have row : ∀ t, (max (args.topkIdxs (token * args.topk + t)) 0).toNat =
      (args.topkIdxs (token * args.topk + t)).toNat := by
    intro t
    omega
  have total : (((List.range args.topk).map (score args token head) ++
      [(args.attnSink head : WithBot K)]).map (weight e.exp)).sum =
        ∑ t ∈ Finset.range args.topk, weight e.exp (score args token head t) +
          e.exp (args.attnSink head) := by
    rw [List.map_append, List.sum_append, List.map_map, List.map_singleton, List.sum_singleton]
    rfl
  have scores : ∀ t, (if 0 ≤ args.topkIdxs (token * args.topk + t) then
      (((∑ d ∈ Finset.range args.dim, args.q ((token * args.heads + head) * args.dim + d) *
        args.kv ((args.topkIdxs (token * args.topk + t)).toNat * args.dim + d)) *
          args.scale : K) : WithBot K) else ⊥) = score args token head t := fun _ => rfl
  unfold sparseAttn softmax
  simp only [row, scores]
  rw [total, List.map_append, List.take_left' (by simp), List.map_map, List.zipWith_map_left,
    List.zipWith_self]
  change ∑ t ∈ Finset.range args.topk, _ = _
  unfold attention
  simp only
  rw [Finset.sum_div]
  refine Finset.sum_congr rfl fun t _ => ?_
  exact div_mul_eq_mul_div _ _ _

end Heads

section Launches

variable {args}

omit [Field K] [LinearOrder K] in
lemma mem_rowStores {token head : ℕ} {value : ℕ → K} {s : Cell × K} :
    s ∈ rowStores args token head value ↔
      ∃ d < args.dim, s = ((token, head, d), value d) := by
  unfold rowStores
  rw [List.mem_map]
  simp only [(strided_perm (show 0 < 256 by decide) args.dim).mem_iff, List.mem_range, eq_comm]

omit [Field K] [LinearOrder K] in
lemma launch_eq {ι : Type} {block : ι → List (Cell × K)} {order : List ι} {f : Cell → K}
    (right : ∀ b ∈ order, ∀ s ∈ block b, s.2 = f s.1) {b : ι} (member : b ∈ order) {p : Cell}
    {v : K} (stored : (p, v) ∈ block b) (y : Cell → K) : launch block order y p = f p := by
  refine stores_of (fun s here => ?_) ?_ y
  · obtain ⟨b, inside, here⟩ := List.mem_flatMap.mp here
    exact right b inside s here
  · exact List.mem_map.mpr ⟨_, List.mem_flatMap.mpr ⟨b, member, stored⟩, rfl⟩

omit [Field K] [LinearOrder K] in
lemma pair_eq {value : ℕ → ℕ → ℕ → K} {f : Cell → K}
    (right : ∀ token head d, value token head d = f (token, head, d)) {order : List ℕ}
    (perm : order.Perm (List.range (args.tokens * ((args.heads + 1) / 2)))) (y : Cell → K)
    {token head d : ℕ} (inToken : token < args.tokens) (inHead : head < args.heads)
    (inDim : d < args.dim) :
    launch (pairBlock args value) order y (token, head, d) = f (token, head, d) := by
  have pairs : head / 2 < (args.heads + 1) / 2 := by omega
  have pair : (token * ((args.heads + 1) / 2) + head / 2) % ((args.heads + 1) / 2) = head / 2 := by
    rw [Nat.mul_comm, Nat.mul_add_mod, Nat.mod_eq_of_lt pairs]
  have row : (token * ((args.heads + 1) / 2) + head / 2) / ((args.heads + 1) / 2) = token := by
    rw [Nat.mul_comm, Nat.mul_add_div (by omega), Nat.div_eq_of_lt pairs, Nat.add_zero]
  have member : token * ((args.heads + 1) / 2) + head / 2 ∈ order := by
    rw [perm.mem_iff, List.mem_range]
    exact entry_lt inToken pairs
  refine launch_eq (fun b _ s here => ?_) member (v := value token head d) ?_ y
  · unfold pairBlock at here
    rcases List.mem_append.mp here with first | second
    · obtain ⟨d, -, rfl⟩ := mem_rowStores.mp first
      exact right _ _ d
    · split_ifs at second
      · obtain ⟨d, -, rfl⟩ := mem_rowStores.mp second
        exact right _ _ d
      · cases second
  · unfold pairBlock
    simp only [pair, row, Nat.mod_eq_of_lt inToken]
    rcases Nat.mod_two_eq_zero_or_one head with even | odd
    · have here : head / 2 * 2 = head := by omega
      rw [here]
      exact List.mem_append_left _ (mem_rowStores.mpr ⟨d, inDim, rfl⟩)
    · have here : head / 2 * 2 + 1 = head := by omega
      rw [here, if_pos (decide_eq_true inHead)]
      exact List.mem_append_right _ (mem_rowStores.mpr ⟨d, inDim, rfl⟩)

end Launches

/-- The kernels, whatever the order of their blocks, and the fallback of `sparse_attn` give the mean
of the rows that the indices of a token name. -/
theorem sparse_attention_agrees (e : Exponential K) (args : Args K) (y : Cell → K)
    {indexed : List (ℕ × ℕ)} {pairs heads : List ℕ}
    (indexedOrder : indexed.Perm (List.range args.heads ×ˢ List.range args.tokens))
    (pairsOrder : pairs.Perm (List.range (args.tokens * ((args.heads + 1) / 2))))
    (headsOrder : heads.Perm (List.range args.heads)) {token head d : ℕ}
    (inToken : token < args.tokens) (inHead : head < args.heads) (inDim : d < args.dim) :
    prefillSparseAttentionIndexed e args indexed y (token, head, d) =
        attention e args (token, head, d) ∧
      prefillSparseAttentionHeadpair e args pairs y (token, head, d) =
        attention e args (token, head, d) ∧
      prefillSparseAttentionHeadpairSerial e args pairs y (token, head, d) =
        attention e args (token, head, d) ∧
      indexedCachedSingleTokenAttention e args token heads y (0, head, d) =
        attention e args (token, head, d) ∧
      sparseAttn e args (token, head, d) = attention e args (token, head, d) := by
  refine ⟨?_, ?_, ?_, ?_, sparseAttn_eq _⟩
  · have member : (head, token) ∈ indexed :=
      indexedOrder.mem_iff.mpr (List.pair_mem_product.mpr
        ⟨List.mem_range.mpr inHead, List.mem_range.mpr inToken⟩)
    refine launch_eq (fun b _ s here => ?_) member (v := serialHead e args token head d) ?_ y
    · obtain ⟨d, -, rfl⟩ := mem_rowStores.mp here
      exact serialHead_eq _ _ d
    · exact mem_rowStores.mpr ⟨d, inDim, rfl⟩
  · exact pair_eq headpairHead_eq pairsOrder y inToken inHead inDim
  · exact pair_eq serialHead_eq pairsOrder y inToken inHead inDim
  · have member : head ∈ heads := headsOrder.mem_iff.mpr (List.mem_range.mpr inHead)
    refine launch_eq (f := fun p => attention e args (token, p.2.1, p.2.2)) (fun b _ s here => ?_)
      member (v := singleTokenBlock e args (fun i => args.q (token * args.heads * args.dim + i))
        (fun t => args.topkIdxs (token * args.topk + t)) head d) ?_ y
    · obtain ⟨d, -, rfl⟩ := mem_rowStores.mp here
      exact singleTokenBlock_eq token _ d
    · exact mem_rowStores.mpr ⟨d, inDim, rfl⟩

/-- The last of three heads, for a token without any row. -/
theorem sparse_attention_agrees_none :
    let e : Exponential ℝ := ⟨Real.exp, Real.exp_pos, Real.exp_add⟩
    let args : Args ℝ := ⟨2, 3, 1, 2, 1, fun i => i, fun i => i, fun i => i,
      fun i => if i < 2 then -1 else 0, fun i => by split_ifs <;> decide, 1⟩
    let y := fun _ => 0
    prefillSparseAttentionIndexed e args [(0, 0), (2, 1), (1, 0), (0, 1), (2, 0), (1, 1)] y
        (0, 2, 0) = attention e args (0, 2, 0) ∧
      prefillSparseAttentionHeadpair e args [3, 1, 0, 2] y (0, 2, 0) =
        attention e args (0, 2, 0) ∧
      prefillSparseAttentionHeadpairSerial e args [3, 1, 0, 2] y (0, 2, 0) =
        attention e args (0, 2, 0) ∧
      indexedCachedSingleTokenAttention e args 0 [2, 0, 1] y (0, 2, 0) =
        attention e args (0, 2, 0) ∧
      sparseAttn e args (0, 2, 0) = attention e args (0, 2, 0) :=
  sparse_attention_agrees _ _ _ (by decide) (by decide) (by decide) (by decide) (by decide)
    (by decide)

end PocketMoE.Engine.SparseAttention
