import PocketMoE.Engine.KvSwap
import PocketMoE.Engine.TopkKernels
import PocketMoE.Lib.Except

/-!
# The global selection of FlashMemory

`run_gguf_generate` with the FlashMemory scorers (`dsv4_engine.cpp`): before the layers of a step it
scores the compressed keys of one layer, the source, and selects the best of them; every layer with
an indexer then reads its own compressed cells at these places. Layers keep their cells as in
`KvSwap`.

The scores of a step and the rows of its layers are arbitrary. `Generator` is what the checks at the
start let through. A run steps through all positions, except for the profiler
(`DSV4_GGUF_DECODE_ONLY_CONTEXT`), which steps at one position with empty caches.
-/

namespace PocketMoE.Engine
open PocketMoE.Lib

/-! ## The options -/

/-- What a layer of the checkpoint has: whether the weights of its compressor and of its indexer are
found. -/
structure LayerWeights where
  compressRatio : Nat
  compressor : Bool
  indexer : Bool

/-- The options of a run with FlashMemory. -/
structure FlashMemoryOptions where
  layers : List LayerWeights
  sparseCompressor : Bool
  sparseIndexer : Bool
  sparseWindow : Nat
  sparseAttnThreshold : Nat
  indexTopk : Nat
  seedTokens : Nat
  maxNewTokens : Nat
  decodeOnlyContext : Nat
  decodeOnlyWarmup : Nat
  flashmemorySrcLayer : Int
  kvSwap : Bool
  kvSwapGpuChunks : Nat
  kvSwapPinnedMib : Nat
  kvSwapTestAllowTopkReduction : Bool
  kvSwapAsyncH2d : Bool
  kvDim : Nat
  kvDim_pos : 0 < kvDim

namespace FlashMemoryOptions

variable (o : FlashMemoryOptions)

/-- `total_positions` -/
def totalPositions : Nat := max (o.seedTokens + (o.maxNewTokens - 1)) o.decodeOnlyContext

/-- `d_compressor_w[L].present` -/
def hasCompressor (l : LayerWeights) : Bool :=
  o.sparseCompressor && decide (0 < l.compressRatio) && l.compressor

/-- The ratio that the compressor of an indexer is loaded with. -/
def indexerRatio : Nat := 4

/-- `lw.indexer` is not null: only layers of ratio 4 have one. -/
def hasIndexer (l : LayerWeights) : Bool :=
  o.hasCompressor l && o.sparseIndexer && decide (l.compressRatio = indexerRatio) && l.indexer

/-- `layer_compressed_cap` -/
def compressedCap (l : LayerWeights) : Nat :=
  if o.hasCompressor l then (max 1 o.totalPositions + l.compressRatio - 1) / l.compressRatio else 0

/-- `max_sparse_compressed_cap` -/
def maxSparseCompressedCap : Nat := (o.layers.map o.compressedCap).foldl max 0

/-- `default_gpu_chunks` -/
def defaultGpuChunks : Nat := max 1 o.indexTopk

/-- `layer_kv_swap_gpu_chunks`; 0 is a layer whose cells all stay on the device. -/
def layerGpuChunks (l : LayerWeights) : Nat :=
  if o.kvSwap ∧ o.hasIndexer l ∧ 0 < o.compressedCap l then
    let chunks := if 0 < o.kvSwapGpuChunks then o.kvSwapGpuChunks else o.defaultGpuChunks
    let chunks := max 1 (min chunks (o.compressedCap l))
    if o.compressedCap l ≤ chunks then 0 else chunks
  else 0

/-- `layer_index_topk` -/
def layerIndexTopk (l : LayerWeights) : Nat :=
  if 0 < o.layerGpuChunks l ∧ o.kvSwapTestAllowTopkReduction then
    min o.indexTopk (o.layerGpuChunks l)
  else o.indexTopk

/-- `gguf_kv_swap_pinned_bytes` -/
def pinnedBytes : Nat :=
  ((o.layers.filter fun l => 0 < o.layerGpuChunks l).map fun l =>
    o.compressedCap l * o.kvDim * 4).sum

/-- `valid_src_layer` -/
def validSrcLayer (layer : Nat) : Bool :=
  (o.layers[layer]?).any fun l => o.hasIndexer l && decide (0 < o.compressedCap l)

/-- The source layer: the given one, or the first that may be one. -/
def srcLayer : Option Nat :=
  if o.flashmemorySrcLayer < 0 then (List.range o.layers.length).find? o.validSrcLayer
  else some o.flashmemorySrcLayer.toNat

/-- `fm_runtime.global_keep_capacity` -/
def globalKeepCapacity : Nat := min o.indexTopk (max 1 o.maxSparseCompressedCap)

/-- The positions of the steps of a run. -/
def positions : List Nat :=
  if o.maxNewTokens = 0 then []
  else if 0 < o.decodeOnlyContext then
    List.replicate (o.decodeOnlyWarmup + 1) (o.decodeOnlyContext - 1)
  else List.range o.totalPositions

end FlashMemoryOptions

/-- Options that passed the checks. -/
structure Generator extends FlashMemoryOptions where
  src : LayerWeights
  srcIndex : Nat
  src_mem : layers[srcIndex]? = some src
  src_indexer : toFlashMemoryOptions.hasIndexer src = true
  window_pos : 0 < sparseWindow
  threshold_le : sparseAttnThreshold ≤ sparseWindow
  topk_pos : 0 < indexTopk
  chunks_le : kvSwap → 0 < kvSwapGpuChunks → kvSwapGpuChunks < max 1 indexTopk →
    kvSwapTestAllowTopkReduction

/-- The checks of `run_gguf_generate`. -/
def FlashMemoryOptions.setup (o : FlashMemoryOptions) : Except String Generator :=
  if !o.sparseCompressor then
    .error "DSV4_GGUF_FLASHMEMORY_RUNTIME_SCORING requires DSV4_GGUF_SPARSE_COMPRESSOR=1"
  else if !o.sparseIndexer then
    .error "DSV4_GGUF_FLASHMEMORY_RUNTIME_SCORING requires DSV4_GGUF_SPARSE_INDEXER=1"
  else if o.kvSwap ∧ o.kvSwapPinnedMib = 0 then
    .error "DSV4_GGUF_KV_SWAP_PINNED_MIB must be > 0"
  else if window : o.sparseWindow = 0 then .error "DSV4_GGUF_SPARSE_WINDOW must be > 0"
  else if threshold : o.sparseWindow < o.sparseAttnThreshold then
    .error "DSV4_GGUF_SPARSE_ATTN_THRESHOLD must be in [0, DSV4_GGUF_SPARSE_WINDOW]"
  else if o.kvSwap ∧ o.indexTopk = 0 then
    .error "DSV4_GGUF_KV_SWAP requires a non-zero index_topk"
  else if chunks : o.kvSwap ∧ 0 < o.kvSwapGpuChunks ∧ o.kvSwapGpuChunks < o.defaultGpuChunks ∧
      !o.kvSwapTestAllowTopkReduction then
    .error <| "DSV4_GGUF_KV_SWAP_GPU_CHUNKS must be >= index_topk to avoid reducing retrieval " ++
      "coverage; set DSV4_GGUF_KV_SWAP_TEST_ALLOW_TOPK_REDUCTION=1 only for small-context tests"
  else if o.kvSwap ∧ o.kvSwapPinnedMib * 1024 * 1024 < o.pinnedBytes then
    .error "DSV4_GGUF_KV_SWAP pinned cache exceeds cap"
  else if topk : o.indexTopk = 0 then
    .error "FlashMemory runtime scoring requires non-zero index_topk in model config"
  else
    match o.srcLayer with
    | none => .error "FlashMemory runtime scoring source layer invalid or missing indexer cache"
    | some srcIndex =>
      match found : o.layers[srcIndex]? with
      | none => .error "FlashMemory runtime scoring source layer invalid or missing indexer cache"
      | some src =>
        if valid : o.hasIndexer src then
          .ok { o with
            src, srcIndex, src_mem := found, src_indexer := valid
            window_pos := Nat.pos_of_ne_zero window
            threshold_le := Nat.not_lt.mp threshold
            topk_pos := Nat.pos_of_ne_zero topk
            chunks_le := fun swap some_ less => by
              by_contra not
              exact chunks ⟨swap, some_, less, by simpa using not⟩ }
        else .error "FlashMemory runtime scoring source layer invalid or missing indexer cache"

namespace Generator

variable (g : Generator)

lemma compressed_pos {l : LayerWeights} (has : g.hasCompressor l = true) :
    0 < l.compressRatio ∧ 0 < g.compressedCap l := by
  have ratio : 0 < l.compressRatio := by
    simp only [FlashMemoryOptions.hasCompressor, Bool.and_eq_true, decide_eq_true_eq] at has
    exact has.1.2
  refine ⟨ratio, ?_⟩
  rw [FlashMemoryOptions.compressedCap, if_pos has]
  refine Nat.div_pos ?_ ratio
  have : 1 ≤ max 1 g.totalPositions := Nat.le_max_left ..
  omega

/-- A layer with a compressor. Without the swap all of its cells have a slot. -/
def layerConfig (l : LayerWeights) (has : g.hasCompressor l = true) : GgufLayerConfig where
  window := g.sparseWindow
  ratio := l.compressRatio
  threshold := g.sparseAttnThreshold
  compressedCap := g.compressedCap l
  gpuChunks := if g.layerGpuChunks l = 0 then g.compressedCap l else g.layerGpuChunks l
  kvDim := g.kvDim
  asyncH2d := g.kvSwapAsyncH2d
  window_pos := g.window_pos
  ratio_pos := (g.compressed_pos has).1
  threshold_le := g.threshold_le
  compressedCap_pos := (g.compressed_pos has).2
  gpuChunks_pos := by
    split_ifs with none
    · exact (g.compressed_pos has).2
    · exact Nat.pos_of_ne_zero none
  kvDim_pos := g.kvDim_pos

end Generator

/-! ## The steps -/

/-- What a step computes for a layer: the row of the token, and the pooled rows that its compressor
and the compressor of its indexer have at the end of a group. -/
structure LayerInput (R : Type) where
  row : R
  pooled : R
  key : R

/-- What a step computes: the ensemble scores of the chunks, and the rows of its layers. -/
structure StepInput (α R : Type) where
  score : Nat → α
  layer : Nat → LayerInput R

/-- A layer: its KV cache, the keys of its indexer, `none` where none was written, and the tokens it
has taken. -/
structure FlashMemoryLayer (R : Type) where
  index : Nat
  weights : LayerWeights
  cache : GgufLayer R
  indexerKv : Nat → Option R
  past : List (GgufToken R)

/-- `fm_runtime.global_available`, `global_keep` and `d_global_topk`. -/
structure GlobalSelection where
  available : Nat
  keep : Nat
  topk : List Nat

namespace Generator

variable {α R : Type} [LinearOrder α] (g : Generator)

/-- The selection that a step makes before its layers. -/
def selectGlobal (position : Nat) (score : Nat → α) : Except String GlobalSelection :=
  let available := min (position / max 1 FlashMemoryOptions.indexerRatio) (g.compressedCap g.src)
  let keep := min g.globalKeepCapacity available
  if 0 < keep then
    match flashmemoryTopk (fun i => (score i : WithBot α)) available keep with
    | none => .error "FlashMemory global topk failed"
    | some best => .ok { available, keep, topk := best.map Prod.fst }
  else .ok { available, keep, topk := [] }

/-- The compressed cells that the sparse attention of a layer reads. -/
def selectFor (l : LayerWeights) (sel : GlobalSelection) (position : Nat) (swap : Bool) :
    Except String (List Nat) :=
  let ready := (position + 1) / l.compressRatio
  let cap := g.compressedCap l
  if g.hasIndexer l ∧ 0 < ready ∧ 0 < g.layerIndexTopk l then
    let available := min ready cap
    if available < sel.available then
      .error "FlashMemory global selection has more chunks than this layer has ready"
    else .ok (sel.topk.take (min available sel.keep))
  else if swap ∧ 0 < ready then .error "GGUF KV swap requires sparse indexer selected chunks"
  else .ok (List.range (min ready cap))

/-- Up to the threshold the attention is dense. -/
def selectCells {l : LayerWeights} (has : g.hasCompressor l = true) (sel : GlobalSelection)
    (position : Nat) (swap : Bool) : Except String (List Nat) :=
  if (g.layerConfig l has).sparse position then g.selectFor l sel position swap else .ok []

/-- A step in a layer. Without a compressor a layer has a row for every position. -/
def layerStep (sel : GlobalSelection) (position : Nat) (input : LayerInput R)
    (l : FlashMemoryLayer R) : Except String (FlashMemoryLayer R) :=
  if has : g.hasCompressor l.weights = true then do
    let cfg := g.layerConfig l.weights has
    let token := GgufToken.mk position input.row input.pooled
    let cache ← cfg.storeCell l.cache (token [])
    let ends : Bool := g.hasIndexer l.weights ∧ (position + 1) % FlashMemoryOptions.indexerRatio = 0
    let indexerKv := if ends then
        Function.update l.indexerKv (position / FlashMemoryOptions.indexerRatio) (some input.key)
      else l.indexerKv
    let selected ← g.selectCells has sel position cache.swap.isSome
    let (cache, _) ← cfg.prepare cache (token selected)
    pure { l with cache, indexerKv, past := l.past ++ [token selected] }
  else if position < l.cache.capacity then
    let kv := Function.update l.cache.kv position input.row
    .ok { l with
      cache := { l.cache with kv }
      past := l.past ++ [⟨position, input.row, input.pooled, []⟩] }
  else .error "position out of KV cache capacity"

/-- `run_step`. -/
def step (input : StepInput α R) (position : Nat) (layers : List (FlashMemoryLayer R)) :
    Except String (List (FlashMemoryLayer R)) := do
  let sel ← g.selectGlobal position input.score
  layers.mapM fun l => g.layerStep sel position (input.layer l.index) l

/-- The cleared caches of a layer. -/
def startLayer (zero : R) (host : Nat → R) (l : LayerWeights) (index : Nat) :
    FlashMemoryLayer R where
  index := index
  weights := l
  cache :=
    if has : g.hasCompressor l = true then
      if g.layerGpuChunks l = 0 then (g.layerConfig l has).resident zero
      else (g.layerConfig l has).swapped zero host
    else { kv := fun _ => zero, capacity := max 1 g.totalPositions, swap := none }
  indexerKv := fun _ => none
  past := []

/-- The layers before the first step. -/
def start (zero : R) (host : Nat → R) : List (FlashMemoryLayer R) :=
  g.layers.zipIdx.map fun l => g.startLayer zero host l.1 l.2

/-- Steps, each at its position. -/
def run (layers : List (FlashMemoryLayer R)) (steps : List (Nat × StepInput α R)) :
    Except String (List (FlashMemoryLayer R)) :=
  steps.foldlM (fun layers s => g.step s.2 s.1 layers) layers

/-! ## The selection -/

/-- What `selectGlobal` returns at a position. -/
structure Selects (position : Nat) (sel : GlobalSelection) : Prop where
  available : sel.available =
    min (position / FlashMemoryOptions.indexerRatio) (g.compressedCap g.src)
  keep : sel.keep = min g.globalKeepCapacity sel.available
  length : sel.topk.length = sel.keep
  nodup : sel.topk.Nodup
  below : ∀ c ∈ sel.topk, c < sel.available

lemma selectGlobal_ok (position : Nat) (score : Nat → α) :
    ∃ sel, g.selectGlobal position score = .ok sel ∧ g.Selects position sel := by
  have ratio : max 1 FlashMemoryOptions.indexerRatio = FlashMemoryOptions.indexerRatio := rfl
  unfold selectGlobal
  rw [ratio]
  generalize ready : min (position / FlashMemoryOptions.indexerRatio) (g.compressedCap g.src) =
    count
  dsimp only
  generalize kept : min g.globalKeepCapacity count = keep
  split_ifs with some_
  · have le : keep ≤ count := kept ▸ Nat.min_le_right ..
    have few : ¬ (count = 0 ∨ keep = 0 ∨ count < keep) := by omega
    have best := @flashmemoryTopkKernel_eq _ _ score count 8 0 keep (by omega)
    rw [Nat.zero_add] at best
    have stored : (((ranked score count).take keep).map fun i =>
        (i, (score i : WithBot α))).map Prod.fst = (ranked score count).take keep := by
      rw [List.map_map]
      exact List.map_id _
    have found : flashmemoryTopk (fun i => (score i : WithBot α)) count keep =
        some (((ranked score count).take keep).map fun i => (i, (score i : WithBot α))) :=
      (if_neg few).trans (congrArg some best)
    rw [found]
    dsimp only
    rw [stored]
    refine ⟨_, rfl, ready.symm, kept.symm, ?_, ranked_nodup.sublist (List.take_sublist ..),
      fun c mem => ?_⟩
    · rw [List.length_take, ranked_length, Nat.min_eq_left le]
    · exact mem_ranked.mp (List.mem_of_mem_take mem)
  · have none : keep = 0 := Nat.eq_zero_of_not_pos some_
    exact ⟨_, rfl, ready.symm, kept.symm, none.symm, List.nodup_nil, nofun⟩

variable {g} {l : LayerWeights} {position : Nat} {sel : GlobalSelection}

lemma hasIndexer_iff : g.hasIndexer l = true ↔ g.hasCompressor l = true ∧ g.sparseIndexer = true ∧
    l.compressRatio = FlashMemoryOptions.indexerRatio ∧ l.indexer = true := by
  simp only [FlashMemoryOptions.hasIndexer, Bool.and_eq_true, decide_eq_true_eq, and_assoc]

lemma compressedCap_indexer (has : g.hasIndexer l = true) :
    g.compressedCap l = g.compressedCap g.src := by
  obtain ⟨here, -, ratio, -⟩ := hasIndexer_iff.mp has
  obtain ⟨there, -, ratio', -⟩ := hasIndexer_iff.mp g.src_indexer
  rw [FlashMemoryOptions.compressedCap, FlashMemoryOptions.compressedCap, if_pos here, if_pos there,
    ratio, ratio']

lemma gpuChunks_ge (full : g.kvSwapTestAllowTopkReduction = false)
    (has : g.hasCompressor l = true) :
    min g.indexTopk (g.compressedCap l) ≤ (g.layerConfig l has).gpuChunks := by
  have cap := (g.compressed_pos has).2
  unfold layerConfig
  dsimp only
  split_ifs with none
  · exact Nat.min_le_right ..
  · unfold FlashMemoryOptions.layerGpuChunks at none ⊢
    dsimp only at none ⊢
    split_ifs at none ⊢ with swap given resident resident
    · exact absurd rfl none
    · have enough : ¬ g.kvSwapGpuChunks < max 1 g.indexTopk := fun less => by
        have := g.chunks_le swap.1 given less
        rw [full] at this
        cases this
      omega
    · exact absurd rfl none
    · unfold FlashMemoryOptions.defaultGpuChunks
      omega
    · exact absurd rfl none

lemma layerIndexTopk_pos : 0 < g.layerIndexTopk l := by
  have := g.topk_pos
  unfold FlashMemoryOptions.layerIndexTopk
  split_ifs with reduced
  · exact Nat.lt_min.mpr ⟨this, reduced.1⟩
  · exact this

lemma hasIndexer_of_chunks (chunks : g.layerGpuChunks l ≠ 0) : g.hasIndexer l = true := by
  by_contra without
  exact chunks (if_neg fun swap => without swap.2.1)

/-- Every layer with an indexer takes the selection as it is: at its position it has at least the
chunks that the source had before the step. -/
lemma Selects.selectFor_indexer (best : g.Selects position sel) (has : g.hasIndexer l = true)
    (swap : Bool) : g.selectFor l sel position swap = .ok sel.topk := by
  have cap := compressedCap_indexer has
  have ratio : l.compressRatio = 4 := (hasIndexer_iff.mp has).2.2.1
  have available : sel.available = min (position / 4) (g.compressedCap l) := cap ▸ best.available
  have keep := best.keep
  unfold selectFor
  dsimp only
  rw [ratio]
  by_cases ready : 0 < (position + 1) / 4
  · have enough : ¬ min ((position + 1) / 4) (g.compressedCap l) < sel.available := by omega
    have all : sel.topk.length ≤ min (min ((position + 1) / 4) (g.compressedCap l)) sel.keep := by
      rw [best.length]
      omega
    rw [if_pos ⟨has, ready, layerIndexTopk_pos⟩, if_neg enough, List.take_of_length_le all]
  · have empty : sel.topk = [] := List.length_eq_zero_iff.mp (best.length.trans (by omega))
    have zero : (position + 1) / 4 = 0 := by omega
    rw [if_neg fun h => ready h.2.1, if_neg fun h => ready h.2, empty, zero, Nat.zero_min]
    rfl

/-! ## The layers -/

/-- The cache of a layer with a compressor; `kv` and `st` are its cache and its tables if it swaps,
`plain` its cache otherwise. -/
def cacheOf (g : Generator) {l : LayerWeights} (has : g.hasCompressor l = true) (st : KvSwap R)
    (kv plain : Nat → R) : GgufLayer R :=
  if g.layerGpuChunks l = 0 then (g.layerConfig l has).withoutSwap plain
  else (g.layerConfig l has).withSwap kv st

/-- A layer that has taken the positions up to `n`. -/
structure Taken (g : Generator) (n : Nat) (l : FlashMemoryLayer R) : Prop where
  weights : g.layers[l.index]? = some l.weights
  past : l.past.map GgufToken.position = List.range n
  keys : g.hasIndexer l.weights = true → ∀ c < n / FlashMemoryOptions.indexerRatio,
    (l.indexerKv c).isSome
  cells : ∀ has, ∃ st kv plain, (g.layerConfig l.weights has).Mirrors l.past st kv plain ∧
    l.cache = g.cacheOf has st kv plain
  rows : g.hasCompressor l.weights = false → l.cache.capacity = max 1 g.totalPositions

lemma stored_of_range {n c : Nat} (has : g.hasCompressor l = true) {past : List (GgufToken R)}
    (taken : past.map GgufToken.position = List.range n) (full : (c + 1) * l.compressRatio ≤ n)
    (cap : c < g.compressedCap l) : (g.layerConfig l has).Stored past c := by
  have ratio : 0 < l.compressRatio := (g.compressed_pos has).1
  have last : c * l.compressRatio + (l.compressRatio - 1) ∈ past.map GgufToken.position := by
    rw [taken, List.mem_range]
    rw [Nat.add_one_mul] at full
    omega
  obtain ⟨t, member, position⟩ := List.mem_map.mp last
  refine ⟨cap, t, member, ?_, ?_⟩
  · show (t.position + 1) % l.compressRatio = 0
    rw [position, Nat.add_assoc, Nat.sub_add_cancel ratio, ← Nat.add_one_mul, Nat.mul_mod_left]
  · show t.position / l.compressRatio = c
    rw [position, Nat.mul_comm, Nat.mul_add_div ratio, Nat.div_eq_of_lt (by omega), Nat.add_zero]

lemma Selects.stored (best : g.Selects position sel) (has : g.hasIndexer l = true)
    (comp : g.hasCompressor l = true) {past : List (GgufToken R)}
    (taken : past.map GgufToken.position = List.range position) :
    ∀ c ∈ sel.topk, (g.layerConfig l comp).Stored past c := by
  intro c member
  have below := best.below c member
  have ratio : l.compressRatio = 4 := (hasIndexer_iff.mp has).2.2.1
  rw [best.available, ← compressedCap_indexer has, Nat.lt_min] at below
  refine stored_of_range comp taken ?_ below.2
  have : c < position / 4 := below.1
  rw [ratio]
  omega

lemma Selects.selects (best : g.Selects position sel)
    (full : g.kvSwapTestAllowTopkReduction = false) (comp : g.hasCompressor l = true)
    {past : List (GgufToken R)} (taken : past.map GgufToken.position = List.range position)
    (row pooled : R) :
    ∃ selected, g.selectCells comp sel position (decide (g.layerGpuChunks l ≠ 0)) = .ok selected ∧
      (g.layerConfig l comp).Selects past ⟨position, row, pooled, selected⟩ := by
  have room := gpuChunks_ge full comp
  unfold selectCells
  by_cases sparse : (g.layerConfig l comp).sparse position
  swap
  · rw [if_neg sparse]
    exact ⟨[], rfl, fun here => absurd here sparse⟩
  rw [if_pos sparse]
  by_cases has : g.hasIndexer l = true
  · refine ⟨sel.topk, best.selectFor_indexer has _, fun _ => ⟨best.nodup, ?_, fun c member => ?_⟩⟩
    · have cap := compressedCap_indexer has
      have keep : sel.keep ≤ min g.indexTopk (g.compressedCap l) := by
        have := best.available
        rw [best.keep, FlashMemoryOptions.globalKeepCapacity]
        omega
      rw [best.length]
      exact Nat.le_min.mpr ⟨keep.trans room, keep.trans (Nat.min_le_right ..)⟩
    · obtain ⟨cap, t, member, rest⟩ := best.stored has comp taken c member
      exact ⟨cap, t, List.mem_append_left _ member, rest⟩
  · -- the layer keeps all of its chunks, and reads all that are ready
    have resident : g.layerGpuChunks l = 0 := by
      by_contra chunks
      exact has (hasIndexer_of_chunks chunks)
    have all : g.selectFor l sel position (decide (g.layerGpuChunks l ≠ 0)) =
        .ok (List.range (min ((position + 1) / l.compressRatio) (g.compressedCap l))) := by
      have plain : decide (g.layerGpuChunks l ≠ 0) = false := decide_eq_false (not_not.mpr resident)
      rw [plain, selectFor]
      exact (if_neg fun h => has h.1).trans (if_neg fun h => Bool.false_ne_true h.1)
    refine ⟨_, all, fun _ => ⟨List.nodup_range, ?_, fun c member => ?_⟩⟩
    · have chunks : (g.layerConfig l comp).gpuChunks = g.compressedCap l := if_pos resident
      have cap : (g.layerConfig l comp).compressedCap = g.compressedCap l := rfl
      rw [chunks, cap, Nat.min_self, List.length_range]
      exact Nat.min_le_right ..
    · obtain ⟨ready, cap⟩ := Nat.lt_min.mp (List.mem_range.mp member)
      have ratio : 0 < l.compressRatio := (g.compressed_pos comp).1
      have full := (Nat.le_div_iff_mul_le ratio).mp ready
      refine stored_of_range comp (n := position + 1) ?_ full cap
      rw [List.map_append, taken, List.range_succ]
      rfl

lemma cacheOf_swap (has : g.hasCompressor l = true) (st : KvSwap R) (kv plain : Nat → R) :
    (g.cacheOf has st kv plain).swap.isSome = decide (g.layerGpuChunks l ≠ 0) := by
  unfold cacheOf
  split_ifs with resident
  · exact (decide_eq_false (not_not.mpr resident)).symm
  · exact (decide_eq_true resident).symm

variable {past : List (GgufToken R)} {st : KvSwap R} {kv plain : Nat → R}

lemma storeCell_cacheOf (has : g.hasCompressor l = true)
    (same : (g.layerConfig l has).Mirrors past st kv plain) (t : GgufToken R) :
    ∃ st' kv' plain', (g.layerConfig l has).storeCell (g.cacheOf has st kv plain) t =
        .ok (g.cacheOf has st' kv' plain') ∧
      (g.layerConfig l has).Mirrors (past ++ [t]) st' kv' plain' := by
  obtain ⟨st', kv', plain', swapped, resident, same'⟩ := same.storeCell (t := t)
  refine ⟨st', kv', plain', ?_, same'⟩
  unfold cacheOf
  split_ifs
  · exact resident
  · exact swapped

lemma prepare_cacheOf (has : g.hasCompressor l = true) {t : GgufToken R}
    (same : (g.layerConfig l has).Mirrors (past ++ [t]) st kv plain)
    (selects : (g.layerConfig l has).Selects past t) :
    ∃ st' kv' plain' indices, (g.layerConfig l has).prepare (g.cacheOf has st kv plain) t =
        .ok (g.cacheOf has st' kv' plain', indices) ∧
      (g.layerConfig l has).Mirrors (past ++ [t]) st' kv' plain' := by
  obtain ⟨st', kv', plain', indices, indices', swapped, resident, same', -⟩ := same.prepare selects
  unfold cacheOf
  split_ifs
  · exact ⟨st', kv', plain', indices', resident, same'⟩
  · exact ⟨st', kv', plain', indices, swapped, same'⟩

lemma Taken.step {layer : FlashMemoryLayer R} (taken : g.Taken position layer)
    (best : g.Selects position sel) (full : g.kvSwapTestAllowTopkReduction = false)
    (inside : position < max 1 g.totalPositions) (input : LayerInput R) :
    ∃ layer', g.layerStep sel position input layer = .ok layer' ∧
      g.Taken (position + 1) layer' := by
  have positions (selected : List Nat) : (layer.past ++
      [GgufToken.mk position input.row input.pooled selected]).map GgufToken.position =
        List.range (position + 1) := by
    rw [List.map_append, taken.past, List.range_succ]
    rfl
  unfold layerStep
  by_cases has : g.hasCompressor layer.weights = true
  · rw [dif_pos has]
    obtain ⟨st, kv, plain, same, cache⟩ := taken.cells has
    obtain ⟨selected, select, selects⟩ :=
      best.selects full has taken.past input.row input.pooled
    obtain ⟨st₁, kv₁, plain₁, stores, same₁⟩ :=
      storeCell_cacheOf has same ⟨position, input.row, input.pooled, selected⟩
    obtain ⟨st₂, kv₂, plain₂, indices, prepares, same₂⟩ := prepare_cacheOf has same₁ selects
    -- the cell that a token stores does not depend on what it selects
    have stores' : (g.layerConfig layer.weights has).storeCell layer.cache
        ⟨position, input.row, input.pooled, []⟩ = .ok (g.cacheOf has st₁ kv₁ plain₁) :=
      cache ▸ stores
    rw [← cacheOf_swap has st₁ kv₁ plain₁] at select
    refine ⟨_, bind_ok.mpr ⟨_, stores', bind_ok.mpr ⟨_, select, bind_ok.mpr ⟨_, prepares, rfl⟩⟩⟩,
      ?_⟩
    refine ⟨taken.weights, positions selected, fun indexer c below => ?_,
      fun _ => ⟨st₂, kv₂, plain₂, same₂, rfl⟩,
      fun without => absurd has (Bool.eq_false_iff.mp without)⟩
    dsimp only
    have before := taken.keys indexer c
    have ratio : FlashMemoryOptions.indexerRatio = 4 := rfl
    rw [ratio] at before below ⊢
    split_ifs with ends
    · rw [Function.update_apply]
      split_ifs with here
      · rfl
      · exact before (by omega)
    · have later : (position + 1) % 4 ≠ 0 := fun zero => ends (decide_eq_true ⟨indexer, zero⟩)
      exact before (by omega)
  · have rows := taken.rows (Bool.eq_false_iff.mpr has)
    rw [dif_neg has, if_pos (rows ▸ inside)]
    refine ⟨_, rfl, taken.weights, positions [], fun indexer => ?_, fun comp => absurd comp has,
      fun _ => rows⟩
    exact absurd (hasIndexer_iff.mp indexer).1 has

variable {zero : R} {host : Nat → R}

lemma Taken.start {index : Nat} (here : g.layers[index]? = some l) :
    g.Taken 0 (g.startLayer zero host l index) where
  weights := here
  past := rfl
  keys _ c below := absurd below (by rw [Nat.zero_div]; exact Nat.not_lt_zero c)
  cells has := by
    obtain ⟨st, swapped, same⟩ := GgufLayerConfig.Mirrors.start (g.layerConfig l has) zero host
    refine ⟨st, _, _, same, ?_⟩
    have here : g.hasCompressor l = true := has
    simp only [startLayer, dif_pos here, cacheOf]
    split_ifs
    · rfl
    · exact swapped
  rows without := by
    have here : ¬ g.hasCompressor l = true := Bool.eq_false_iff.mp without
    simp only [startLayer, dif_neg here]

variable {α : Type} [LinearOrder α] {layers : List (FlashMemoryLayer R)}

lemma step_ok (full : g.kvSwapTestAllowTopkReduction = false) (input : StepInput α R)
    (inside : position < max 1 g.totalPositions) (taken : ∀ l ∈ layers, g.Taken position l) :
    ∃ layers', g.step input position layers = .ok layers' ∧
      ∀ l ∈ layers', g.Taken (position + 1) l := by
  obtain ⟨sel, selects, best⟩ := g.selectGlobal_ok position input.score
  have each : ∀ l ∈ layers, ∃ l', g.layerStep sel position (input.layer l.index) l = .ok l' ∧
      g.Taken (position + 1) l' := fun l member => (taken l member).step best full inside _
  obtain ⟨layers', all⟩ := exists_forall₂.mpr each
  refine ⟨layers', bind_ok.mpr ⟨sel, selects, mapM_ok.mpr (all.imp fun _ _ h => h.1)⟩, ?_⟩
  intro l' member
  obtain ⟨l, _, _, here⟩ := forall₂_mem (all.flip) l' member
  exact here

lemma run_ok (full : g.kvSwapTestAllowTopkReduction = false) (steps : List (Nat × StepInput α R))
    (order : steps.map Prod.fst = List.range steps.length)
    (inside : steps.length ≤ max 1 g.totalPositions) :
    ∃ layers, g.run (g.start zero host) steps = .ok layers ∧
      ∀ l ∈ layers, g.Taken steps.length l := by
  induction steps using List.reverseRecOn with
  | nil =>
    refine ⟨_, rfl, fun l member => ?_⟩
    obtain ⟨⟨weights, index⟩, here, rfl⟩ := List.mem_map.mp member
    exact .start (List.mk_mem_zipIdx_iff_getElem?.mp here)
  | append_singleton steps s ih =>
    rw [List.map_append, List.length_append, List.length_singleton, List.range_succ] at order
    obtain ⟨order, here⟩ := List.append_inj order (by rw [List.length_map, List.length_range])
    have position : s.1 = steps.length := (List.cons.inj here).1
    rw [List.length_append, List.length_singleton] at inside ⊢
    obtain ⟨layers, runs, taken⟩ := ih order (by omega)
    obtain ⟨layers', done, taken'⟩ := step_ok full s.2 (by omega) taken
    refine ⟨layers', ?_, taken'⟩
    rw [run, List.foldlM_append]
    refine bind_ok.mpr ⟨layers, runs, ?_⟩
    rw [List.foldlM_cons, position]
    exact bind_ok.mpr ⟨layers', done, rfl⟩

/-- What is asked of a selection: different chunks, whose keys the source has, and which every layer
with an indexer reads and has written. -/
structure Valid (g : Generator) (layers : List (FlashMemoryLayer R)) (position : Nat)
    (sel : GlobalSelection) : Prop where
  distinct : sel.topk.Nodup
  keys : ∀ l ∈ layers, l.index = g.srcIndex → ∀ c ∈ sel.topk, (l.indexerKv c).isSome
  reads : ∀ l ∈ layers, g.hasIndexer l.weights = true → ∀ swap,
    g.selectFor l.weights sel position swap = .ok sel.topk
  cells : ∀ l ∈ layers, g.hasIndexer l.weights = true → ∀ has : g.hasCompressor l.weights = true,
    ∀ c ∈ sel.topk, (g.layerConfig l.weights has).Stored l.past c

lemma Selects.valid (best : g.Selects position sel) (taken : ∀ l ∈ layers, g.Taken position l) :
    g.Valid layers position sel where
  distinct := best.nodup
  keys l member source c chosen := by
    have src : l.weights = g.src := Option.some.inj <|
      (taken l member).weights.symm.trans (source ▸ g.src_mem)
    have indexer : g.hasIndexer l.weights = true := src ▸ g.src_indexer
    have below := best.below c chosen
    rw [best.available, Nat.lt_min] at below
    exact (taken l member).keys indexer c below.1
  reads _ _ has swap := best.selectFor_indexer has swap
  cells l member has comp := best.stored has comp (taken l member).past

/-- Every selection is of different chunks within the capacity of all layers that read it. In a run
that steps through the positions, with slots for `index_topk` chunks, they have been written by
earlier steps, and no step fails. -/
theorem flashmemory_valid (g : Generator) (zero : R) (host : Nat → R) :
    (∀ position (score : Nat → α), ∃ sel, g.selectGlobal position score = .ok sel ∧
      sel.topk.Nodup ∧ ∀ l, g.hasIndexer l = true →
        (∀ swap, g.selectFor l sel position swap = .ok sel.topk) ∧
          ∀ c ∈ sel.topk, c < g.compressedCap l) ∧
    (g.decodeOnlyContext = 0 → g.kvSwapTestAllowTopkReduction = false →
      ∀ (steps : List (Nat × StepInput α R)) (s : Nat × StepInput α R),
        (steps ++ [s]).map Prod.fst <+: g.positions →
          ∃ layers sel layers', g.run (g.start zero host) steps = .ok layers ∧
            g.selectGlobal s.1 s.2.score = .ok sel ∧ g.Valid layers s.1 sel ∧
              g.step s.2 s.1 layers = .ok layers') := by
  constructor
  · intro position score
    obtain ⟨sel, selects, best⟩ := g.selectGlobal_ok position score
    refine ⟨sel, selects, best.nodup, fun l has => ⟨best.selectFor_indexer has, fun c chosen => ?_⟩⟩
    have below := best.below c chosen
    rw [best.available, ← compressedCap_indexer has] at below
    exact (Nat.lt_min.mp below).2
  · intro stepping full steps s order
    have range : (steps ++ [s]).map Prod.fst <+: List.range g.totalPositions := by
      unfold FlashMemoryOptions.positions at order
      rw [if_neg (by omega : ¬ 0 < g.decodeOnlyContext)] at order
      split_ifs at order
      · have empty := List.prefix_nil.mp order
        rw [List.map_append] at empty
        exact absurd (List.append_eq_nil_iff.mp empty).2 (List.cons_ne_nil _ _)
      · exact order
    have length : steps.length + 1 ≤ g.totalPositions := by
      have := range.length_le
      rwa [List.length_map, List.length_append, List.length_range] at this
    have all : (steps ++ [s]).map Prod.fst = List.range (steps.length + 1) := by
      have taken := List.prefix_iff_eq_take.mp range
      rwa [List.take_range, List.length_map, List.length_append, List.length_singleton,
        Nat.min_eq_left length] at taken
    rw [List.map_append, List.range_succ] at all
    obtain ⟨first, last⟩ := List.append_inj all (by rw [List.length_map, List.length_range])
    have position : s.1 = steps.length := (List.cons.inj last).1
    obtain ⟨layers, runs, taken⟩ := run_ok full steps first (by omega)
    rw [← position] at taken
    obtain ⟨sel, selects, best⟩ := g.selectGlobal_ok s.1 s.2.score
    obtain ⟨layers', done, -⟩ := step_ok full s.2 (by omega) taken
    exact ⟨layers, sel, layers', runs, selects, best.valid taken, done⟩

/-- One layer that swaps, with two slots for the chunks of sixteen positions. -/
def swapping : FlashMemoryOptions where
  layers := [⟨4, true, true⟩]
  sparseCompressor := true
  sparseIndexer := true
  sparseWindow := 4
  sparseAttnThreshold := 0
  indexTopk := 2
  seedTokens := 15
  maxNewTokens := 2
  decodeOnlyContext := 0
  decodeOnlyWarmup := 0
  flashmemorySrcLayer := -1
  kvSwap := true
  kvSwapGpuChunks := 0
  kvSwapPinnedMib := 1
  kvSwapTestAllowTopkReduction := false
  kvSwapAsyncH2d := true
  kvDim := 1
  kvDim_pos := Nat.one_pos

/-- The last of sixteen steps selects two of three chunks. -/
theorem flashmemory_valid_swapping : ∃ g, swapping.setup = .ok g ∧
    let input : StepInput Nat Nat := ⟨id, fun _ => ⟨1, 2, 3⟩⟩
    ∃ layers sel layers',
      g.run (g.start 0 id) ((List.range 15).map fun position => (position, input)) = .ok layers ∧
        g.selectGlobal 15 input.score = .ok sel ∧ g.Valid layers 15 sel ∧
          g.step input 15 layers = .ok layers' :=
  ⟨_, rfl, (flashmemory_valid _ 0 id).2 rfl rfl _ (15, _) ⟨[], rfl⟩⟩

lemma selectGlobal_one (score : Nat → α)
    (one : min (position / FlashMemoryOptions.indexerRatio) (g.compressedCap g.src) = 1)
    (room : min g.globalKeepCapacity 1 = 1) :
    ∃ sel, g.selectGlobal position score = .ok sel ∧ 0 ∈ sel.topk := by
  obtain ⟨sel, selects, best⟩ := g.selectGlobal_ok position score
  have available : sel.available = 1 := best.available.trans one
  have keep : sel.topk.length = 1 := by rw [best.length, best.keep, available, room]
  obtain ⟨c, only⟩ := List.length_eq_one_iff.mp keep
  have member : c ∈ sel.topk := only ▸ List.mem_singleton_self c
  have below := best.below c member
  have zero : c = 0 := by omega
  exact ⟨sel, selects, zero ▸ member⟩

/-- The profiler steps at one position only: it selects a chunk that was not written. -/
theorem flashmemory_profiler :
    ∃ g, { swapping with decodeOnlyContext := 8 }.setup = .ok g ∧ g.positions[0]? = some 7 ∧
      (∃ sel, g.selectGlobal 7 (fun c => c) = .ok sel ∧ 0 ∈ sel.topk) ∧
        ∃ l ∈ g.start 0 id, l.index = g.srcIndex ∧ l.indexerKv 0 = none ∧ l.past = [] :=
  ⟨_, rfl, rfl, selectGlobal_one _ rfl rfl, _, .head _, rfl, rfl, rfl⟩

end Generator

end PocketMoE.Engine
