import PocketMoE.Engine.KvSwap
import PocketMoE.Lib.TopK

/-!
# The KV caches that the GGUF generator plans

`run_gguf_generate_smoke` (`dsv4_engine.cpp`) with `DSV4_GGUF_SPARSE_COMPRESSOR=1`: what it refuses
at the start, how many chunks and slots each layer gets, and the size of the index buffer that the
layers share. The FlashMemory plugin, which replaces the selection of the indexer, is off. Sizes are
natural numbers: no `int` overflows.

A started generator is a `GgufPlan`: it carries that nothing was refused.
-/

namespace PocketMoE.Engine
open PocketMoE.Lib

/-- What the model file has for a layer: its entry in `compress_ratios`, 0 when there is none, and
whether the tensors of a compressor and of an indexer were found. -/
structure GgufLayerFile where
  compressRatio : Nat
  compressor : Bool
  indexer : Bool
  deriving DecidableEq

/-- The request, the model file and the environment, as far as the KV caches depend on them. A
variable that is not set, or not a number, is `none`. -/
structure GgufStart where
  seedTokens : Nat
  maxNewTokens : Int
  layers : List GgufLayerFile
  windowSize : Nat
  indexTopk : Nat
  indexNHeads : Nat
  indexHeadDim : Nat
  kvDim : Nat
  kvDim_pos : 0 < kvDim
  sparseWindow? : Option Int
  sparseAttnThreshold? : Option Int
  decodeOnlyContext : Int
  sparseIndexer : Bool
  kvSwapRequested : Bool
  kvSwapGpuChunks : Int
  kvSwapPinnedMib : Int
  kvSwapSync : Int
  allowTopkReduction : Bool

namespace GgufStart

variable (s : GgufStart)

/-! ## What is planned -/

/-- `gguf_sparse_window`. -/
def sparseWindow : Int :=
  s.sparseWindow?.getD (if s.windowSize = 0 then 128 else s.windowSize)

/-- `gguf_sparse_attn_threshold`. -/
def sparseAttnThreshold : Int := s.sparseAttnThreshold?.getD s.sparseWindow

/-- `total_positions`. -/
def totalPositions : Nat :=
  max (s.seedTokens + (s.maxNewTokens - 1).toNat) s.decodeOnlyContext.toNat

/-- `d_compressor_w[L].present`. -/
def compressorPresent (l : GgufLayerFile) : Bool := decide (0 < l.compressRatio) && l.compressor

/-- `d_indexer_w[L].present`. -/
def indexerPresent (l : GgufLayerFile) : Bool :=
  s.sparseIndexer && decide (l.compressRatio = 4) && decide (0 < s.indexNHeads) &&
    decide (0 < s.indexHeadDim) && l.indexer

/-- `layer_compressed_cap`: the chunks of all positions, the last one may be incomplete. -/
def layerCompressedCap (l : GgufLayerFile) : Nat :=
  if compressorPresent l then (max 1 s.totalPositions + l.compressRatio - 1) / l.compressRatio
  else 0

/-- `max_sparse_compressed_cap`. -/
def maxSparseCompressedCap : Nat := (s.layers.map s.layerCompressedCap).foldr max 0

/-- `default_gpu_chunks`. -/
def defaultGpuChunks : Nat := max 1 s.indexTopk

/-- `layer_kv_swap_gpu_chunks`: the chunks on the device, 0 for a layer without the swap. -/
def layerKvSwapGpuChunks (l : GgufLayerFile) : Nat :=
  let cap := s.layerCompressedCap l
  if s.kvSwapRequested && compressorPresent l && s.indexerPresent l && decide (0 < cap) then
    let asked := if 0 < s.kvSwapGpuChunks then s.kvSwapGpuChunks.toNat else s.defaultGpuChunks
    let chunks := max 1 (min asked cap)
    if cap ≤ chunks then 0 else chunks
  else 0

/-- `layer_index_topk`. -/
def layerIndexTopk (l : GgufLayerFile) : Nat :=
  if 0 < s.layerKvSwapGpuChunks l ∧ s.allowTopkReduction then
    min s.indexTopk (s.layerKvSwapGpuChunks l)
  else s.indexTopk

/-- `layer_cache_capacity`. -/
def layerCacheCapacity (l : GgufLayerFile) : Nat :=
  if compressorPresent l then
    let residentCompressed := if 0 < s.layerKvSwapGpuChunks l then s.layerKvSwapGpuChunks l
      else max 1 (s.layerCompressedCap l)
    max 1 (s.sparseWindow.toNat + residentCompressed)
  else max 1 s.totalPositions

/-- `cache_capacity`, the largest of the layers. -/
def cacheCapacity : Nat := (s.layers.map s.layerCacheCapacity).foldr max 1

/-- `max_kv_index_count`, the size of the index buffer. -/
def maxKvIndexCount : Nat :=
  min s.cacheCapacity (s.sparseWindow.toNat + max 1 s.maxSparseCompressedCap)

/-- `gguf_kv_swap_pinned_bytes`. -/
def pinnedBytes : Nat :=
  (s.layers.map fun l =>
    if 0 < s.layerKvSwapGpuChunks l then s.layerCompressedCap l * s.kvDim * 4 else 0).sum

/-! ## What is refused -/

/-- The checks in their order, with their messages. `mib` prints a number of bytes in MiB. -/
def refusals (mib : Nat → String) : List (Bool × String) :=
  let swap := s.kvSwapRequested
  let few := 0 < s.kvSwapGpuChunks ∧ s.kvSwapGpuChunks < s.defaultGpuChunks
  let capBytes := s.kvSwapPinnedMib.toNat * 1024 * 1024
  [ (decide (s.seedTokens = 0), "seed_tokens must be non-empty"),
    (decide (s.maxNewTokens < 0), "max_new_tokens must be >= 0"),
    (swap && decide (s.kvSwapPinnedMib ≤ 0), "DSV4_GGUF_KV_SWAP_PINNED_MIB must be > 0"),
    (swap && decide (s.kvSwapGpuChunks < 0), "DSV4_GGUF_KV_SWAP_GPU_CHUNKS must be >= 0"),
    (swap && decide (s.kvSwapSync ≠ 0 ∧ s.kvSwapSync ≠ 1), "DSV4_GGUF_KV_SWAP_SYNC must be 0 or 1"),
    (decide (s.sparseWindow ≤ 0), "DSV4_GGUF_SPARSE_WINDOW must be > 0"),
    (decide (s.sparseAttnThreshold < 0 ∨ s.sparseWindow < s.sparseAttnThreshold),
      "DSV4_GGUF_SPARSE_ATTN_THRESHOLD must be in [0, DSV4_GGUF_SPARSE_WINDOW]"),
    (decide (s.decodeOnlyContext < 0), "DSV4_GGUF_DECODE_ONLY_CONTEXT must be >= 0"),
    (swap && !s.sparseIndexer,
      "DSV4_GGUF_KV_SWAP requires DSV4_GGUF_SPARSE_INDEXER=1 for phase-1 correctness"),
    (swap && decide (s.indexTopk = 0), "DSV4_GGUF_KV_SWAP requires a non-zero index_topk"),
    (swap && decide few && !s.allowTopkReduction,
      "DSV4_GGUF_KV_SWAP_GPU_CHUNKS must be >= index_topk to avoid reducing retrieval " ++
        "coverage; set DSV4_GGUF_KV_SWAP_TEST_ALLOW_TOPK_REDUCTION=1 only for " ++
        "small-context tests"),
    (swap && decide (capBytes < s.pinnedBytes),
      "DSV4_GGUF_KV_SWAP pinned cache exceeds cap: required_mib=" ++ mib s.pinnedBytes ++
        " cap_mib=" ++ toString s.kvSwapPinnedMib) ]

/-- No check fails. -/
def Accepted : Prop := ∀ r ∈ s.refusals fun _ => "", r.1 = false

instance : Decidable s.Accepted := by
  unfold Accepted
  infer_instance

lemma accepted_of_none {s : GgufStart} {mib : Nat → String}
    (passed : ((s.refusals mib).find? fun r => r.1) = none) : s.Accepted := by
  rw [List.find?_eq_none] at passed
  simpa [Accepted, refusals] using passed

end GgufStart

/-- A started generator: nothing was refused. -/
structure GgufPlan where
  start : GgufStart
  accepted : start.Accepted

/-- The start of the generator: the first check that fails is thrown. -/
def GgufStart.plan (mib : Nat → String) (s : GgufStart) : Except String GgufPlan :=
  match passed : (s.refusals mib).find? fun r => r.1 with
  | some (_, message) => .error message
  | none => .ok ⟨s, accepted_of_none passed⟩

/-- A start with the swap that is accepted: three chunks and two slots in the first layer. -/
example :
    let start : GgufStart := {
      seedTokens := 8, maxNewTokens := 5, layers := [⟨4, true, true⟩, ⟨0, false, false⟩]
      windowSize := 2, indexTopk := 2, indexNHeads := 1, indexHeadDim := 1, kvDim := 1
      kvDim_pos := by decide, sparseWindow? := none, sparseAttnThreshold? := some 1
      decodeOnlyContext := 0, sparseIndexer := true, kvSwapRequested := true, kvSwapGpuChunks := 2
      kvSwapPinnedMib := 1, kvSwapSync := 1, allowTopkReduction := false }
    start.Accepted ∧ start.layerCompressedCap ⟨4, true, true⟩ = 3 ∧
      start.layerKvSwapGpuChunks ⟨4, true, true⟩ = 2 ∧ start.maxKvIndexCount = 5 := by
  decide

namespace GgufPlan

variable (p : GgufPlan)

/-! ## What the checks say -/

lemma window_pos : 0 < p.start.sparseWindow := by
  have := p.accepted
  simp only [GgufStart.Accepted, GgufStart.refusals, List.forall_mem_cons] at this
  simpa using this.2.2.2.2.2.1

lemma threshold_range :
    0 ≤ p.start.sparseAttnThreshold ∧ p.start.sparseAttnThreshold ≤ p.start.sparseWindow := by
  have := p.accepted
  simp only [GgufStart.Accepted, GgufStart.refusals, List.forall_mem_cons] at this
  simpa using this.2.2.2.2.2.2.1

lemma indexTopk_pos (swap : p.start.kvSwapRequested = true) : 0 < p.start.indexTopk := by
  have := p.accepted
  simp only [GgufStart.Accepted, GgufStart.refusals, List.forall_mem_cons] at this
  have topk := this.2.2.2.2.2.2.2.2.2.1
  simp only [swap, Bool.true_and, decide_eq_false_iff_not] at topk
  omega

lemma chunks_cover (swap : p.start.kvSwapRequested = true)
    (all : p.start.allowTopkReduction = false) (asked : 0 < p.start.kvSwapGpuChunks) :
    (p.start.defaultGpuChunks : Int) ≤ p.start.kvSwapGpuChunks := by
  have := p.accepted
  simp only [GgufStart.Accepted, GgufStart.refusals, List.forall_mem_cons] at this
  have few := this.2.2.2.2.2.2.2.2.2.2.1
  simp only [swap, all, Bool.true_and, Bool.not_false, Bool.and_true, decide_eq_false_iff_not]
    at few
  omega

/-! ## What the plan provides -/

variable {p}

lemma topk_le_chunks {l : GgufLayerFile} (swaps : 0 < p.start.layerKvSwapGpuChunks l) :
    p.start.layerIndexTopk l ≤ p.start.layerKvSwapGpuChunks l := by
  unfold GgufStart.layerIndexTopk
  by_cases reduced : p.start.allowTopkReduction = true
  · rw [if_pos ⟨swaps, reduced⟩]
    exact min_le_right ..
  · rw [if_neg (by tauto)]
    have all : p.start.allowTopkReduction = false := by simpa using reduced
    revert swaps
    unfold GgufStart.layerKvSwapGpuChunks
    simp only
    split_ifs with on asked full full
    · simp
    · -- more chunks than slots, so the slots are those that were asked for
      intro _
      have swap : p.start.kvSwapRequested = true := by
        simp only [Bool.and_eq_true] at on
        exact on.1.1.1
      have := p.chunks_cover swap all asked
      unfold GgufStart.defaultGpuChunks at this
      omega
    · simp
    · intro _
      unfold GgufStart.defaultGpuChunks at full ⊢
      omega
    · simp

lemma swaps_of_pos {l : GgufLayerFile} (swaps : 0 < p.start.layerKvSwapGpuChunks l) :
    p.start.kvSwapRequested = true ∧ GgufStart.compressorPresent l = true ∧
      p.start.indexerPresent l = true ∧
      p.start.layerKvSwapGpuChunks l < p.start.layerCompressedCap l := by
  revert swaps
  unfold GgufStart.layerKvSwapGpuChunks
  simp only
  split_ifs with on asked full full
  · simp
  · simp only [Bool.and_eq_true] at on
    exact fun _ => ⟨on.1.1.1, on.1.1.2, on.1.2, by omega⟩
  · simp
  · simp only [Bool.and_eq_true] at on
    exact fun _ => ⟨on.1.1.1, on.1.1.2, on.1.2, by omega⟩
  · simp

lemma layerIndexTopk_pos {l : GgufLayerFile} (swaps : 0 < p.start.layerKvSwapGpuChunks l) :
    0 < p.start.layerIndexTopk l := by
  have topk := p.indexTopk_pos (swaps_of_pos swaps).1
  unfold GgufStart.layerIndexTopk
  split_ifs
  · omega
  · exact topk

lemma le_foldr_max {ι : Type} {f : ι → Nat} {base : Nat} {xs : List ι} {x : ι} (member : x ∈ xs) :
    f x ≤ (xs.map f).foldr max base := by
  induction xs with
  | nil => cases member
  | cons y rest ih =>
    rw [List.map_cons, List.foldr_cons]
    rcases List.mem_cons.mp member with rfl | later
    · exact le_max_left ..
    · exact (ih later).trans (le_max_right ..)

lemma fits_buffer {l : GgufLayerFile} (member : l ∈ p.start.layers)
    (present : GgufStart.compressorPresent l = true) {len extra : Nat}
    (window : len ≤ p.start.sparseWindow.toNat) (chunks : extra ≤ p.start.layerCompressedCap l)
    (slots : 0 < p.start.layerKvSwapGpuChunks l → extra ≤ p.start.layerKvSwapGpuChunks l) :
    len + extra ≤ p.start.maxKvIndexCount := by
  have capacity : p.start.layerCacheCapacity l ≤ p.start.cacheCapacity := le_foldr_max member
  have cap : p.start.layerCompressedCap l ≤ p.start.maxSparseCompressedCap := le_foldr_max member
  unfold GgufStart.maxKvIndexCount
  unfold GgufStart.layerCacheCapacity at capacity
  simp only [present, if_true] at capacity
  split_ifs at capacity with swaps
  · have := slots swaps
    omega
  · omega

end GgufPlan

end PocketMoE.Engine
