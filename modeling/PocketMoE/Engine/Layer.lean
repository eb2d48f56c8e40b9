import Mathlib.Data.Multiset.Basic
import PocketMoE.Lib.Softmax
import PocketMoE.Lib.Tensor
import PocketMoE.Lib.TopK

/-!
# A layer of the C++ engine and its caches

Model of what one layer does with its caches in `dsv4_engine.cpp`: for a decoded token
(`run_safetensors_token_forward_impl`, lines 3275 to 3447, and `run_single_token_attention_smoke`)
and for a prompt (`run_safetensors_prompt_prefill_impl`, lines 2599 to 2752), with the kernels of
`cuda_ops.cu` they launch. Per-token projections are parameters; attention and what follows it in
the layer is a function of the token's row and of the cache rows it reads (`Layer.block`). `X` is
what goes through the layers for a token: its residual row, and its id for the hashed gates.

The cache of a layer has the slots of the window ring, then one slot for every compressed cell. A
prompt writes the ring only; decode also feeds the compressor, and where there is one the indexer
with its own compressor and cells.

`reads`, `written` and `stale` of a `LayerState` are not in the source. They record what the
attention has read at every position, and whether all cells read had been written since the reset.
-/

namespace PocketMoE.Engine
open PocketMoE.Lib PocketMoE.Softmax PocketMoE.Tensor

variable {X K : Type}

/-- A row of floats. -/
abbrev Row (K : Type) := Nat → K

/-! ## The compressor kernels -/

/-- The parameters of a compressor: the projections of a token, and norm, rotation at a position and
quantisation of a pooled row. `overlap` says that the projections have `2 * head_dim` columns. -/
structure DeviceCompressor (X K : Type) where
  overlap : Bool
  headDim : Nat
  wkv : X → Row K
  wgate : X → Row K
  ape : Nat → Row K
  finish : Nat → Row K → Row K

/-- The running state of a compressor. -/
structure CompressorState (K : Type) where
  kv : Nat → Row K
  score : Nat → Nat → WithBot K

/-- `reset_one`: accumulators of zero, scores of minus infinity. -/
def CompressorState.reset [Zero K] : CompressorState K where
  kv := fun _ _ => 0
  score := fun _ _ => ⊥

namespace DeviceCompressor

variable (c : DeviceCompressor X K) (ratio : Nat)

/-- The state row of a position. -/
def writeSlot (position : Nat) : Nat :=
  if c.overlap then ratio + position % ratio else position % ratio

/-- `compressor_update_state_kernel`. -/
def updateState [Add K] (s : CompressorState K) (x : X) (position : Nat) : CompressorState K where
  kv := Function.update s.kv (c.writeSlot ratio position) (c.wkv x)
  score := Function.update s.score (c.writeSlot ratio position) fun j =>
    ((c.wgate x j + c.ape (position % ratio) j : K) : WithBot K)

/-- `compressor_pool_kernel`. -/
def pool [Field K] (expo : K → K) (s : CompressorState K) : Row K := fun d =>
  let slots := List.range (if c.overlap then ratio * 2 else ratio)
  let col := fun t => if c.overlap && decide (ratio ≤ t) then c.headDim + d else d
  softmaxSum expo (slots.map fun t => s.kv t (col t)) (slots.map fun t => s.score t (col t))

/-- `compressor_shift_overlap_state_kernel`: the second half becomes the first, and is cleared. -/
def shiftOverlap [Zero K] (s : CompressorState K) : CompressorState K where
  kv := fun t =>
    if t < ratio then s.kv (ratio + t) else if t < ratio * 2 then fun _ => 0 else s.kv t
  score := fun t =>
    if t < ratio then s.score (ratio + t) else if t < ratio * 2 then fun _ => ⊥ else s.score t

/-- Feed a token: update the state, and at the end of a group pool the cell and shift. -/
def feed [Field K] (expo : K → K) (s : CompressorState K) (x : X) (position : Nat) :
    CompressorState K × Option (Row K) :=
  let s := c.updateState ratio s x position
  if (position + 1) % ratio = 0 then
    (if c.overlap then shiftOverlap ratio s else s,
      some (c.finish (position + 1 - ratio) (c.pool ratio expo s)))
  else
    (s, none)

end DeviceCompressor

/-! ## Layers and caches -/

/-- What is configured for a layer, and which weights its checkpoint has. Indexer weights come with
those of the compressor. -/
structure LayerConfig where
  compressRatio : Nat
  hasCompressor : Bool
  hasIndexer : Bool
  indexer_compressor : hasIndexer = true → hasCompressor = true

/-- Decode runs the compressor of the layer. -/
def LayerConfig.compresses (l : LayerConfig) : Prop :=
  0 < l.compressRatio ∧ l.compressRatio ≤ 256 ∧ l.hasCompressor = true

/-- Decode selects compressed cells with the layer's indexer. -/
def LayerConfig.indexes (l : LayerConfig) : Prop :=
  l.compressRatio = 4 ∧ l.hasIndexer = true

instance (l : LayerConfig) : Decidable l.compresses := by
  unfold LayerConfig.compresses
  infer_instance

instance (l : LayerConfig) : Decidable l.indexes := by
  unfold LayerConfig.indexes
  infer_instance

lemma LayerConfig.indexes.compresses {l : LayerConfig} (indexes : l.indexes) : l.compresses := by
  obtain ⟨four, has⟩ := indexes
  exact ⟨by omega, by omega, l.indexer_compressor has⟩

/-- A layer: its configuration, the KV row and the compressor input of a token, the score of an
indexer cell for a token, and the rest of the layer as a function of the rows that are read. -/
structure Layer (X K : Type) extends LayerConfig where
  kvRow : X → Nat → Row K
  compressor : DeviceCompressor X K
  indexer : DeviceCompressor X K
  indexScore : X → Nat → Row K → K
  block : X → Nat → Multiset (Row K) → X

/-- What is configured for all layers. -/
structure EngineConfig where
  windowSize : Nat
  maxContext : Nat
  indexTopk : Nat
  windowSize_pos : 0 < windowSize
  maxContext_pos : 0 < maxContext

/-- `kv_cache_capacity_for_layer`. -/
def EngineConfig.capacity (cfg : EngineConfig) (l : LayerConfig) : Nat :=
  cfg.windowSize +
    if l.compressRatio = 0 then 0
    else (cfg.maxContext + l.compressRatio - 1) / l.compressRatio

/-- The device buffers of a layer. -/
structure LayerCache (K : Type) where
  kv : Nat → Row K
  compressor : CompressorState K
  indexerKv : Nat → Row K
  indexerCompressor : CompressorState K

/-- A cell that is read back later: a slot of the KV cache, or an indexer cell. -/
inductive Cell where
  | kv (slot : Nat)
  | indexer (cell : Nat)
deriving DecidableEq

/-- What a layer does with a token: the caches after it, the cells it wrote and then read, the rows
that the attention read, and the token's row after the layer. -/
structure LayerCall (X K : Type) where
  cache : LayerCache K
  wrote : List Cell
  read : List Cell
  rows : Multiset (Row K)
  out : X

/-- The buffers of a layer, and the record of what has been read and written since the reset. -/
structure LayerState (K : Type) where
  cache : LayerCache K
  reads : Nat → Multiset (Row K)
  written : Cell → Bool
  stale : Bool

namespace LayerState

/-- The compressor states are reset, the other buffers stay as they are. -/
def reset [Zero K] (s : LayerState K) : LayerState K where
  cache := { s.cache with
    compressor := CompressorState.reset
    indexerCompressor := CompressorState.reset }
  reads := fun _ => 0
  written := fun _ => false
  stale := false

/-- The state after a call at a position. -/
def record (s : LayerState K) (position : Nat) (call : LayerCall X K) : LayerState K :=
  let written := fun cell => s.written cell || decide (cell ∈ call.wrote)
  { cache := call.cache
    reads := Function.update s.reads position call.rows
    written := written
    stale := s.stale || call.read.any fun cell => !written cell }

end LayerState

/-! ## A decoded token -/

section Decode

variable [Field K] [LinearOrder K] (cfg : EngineConfig) (expo : K → K)

/-- The compressor part of a decoded token, with the cell it writes. -/
def runCompressor (l : Layer X K) (c : LayerCache K) (x : X) (position : Nat) :
    LayerCache K × List Cell :=
  if l.compresses then
    let fed := l.compressor.feed l.compressRatio expo c.compressor x position
    let c := { c with compressor := fed.1 }
    let slot := cfg.windowSize + position / l.compressRatio
    match fed.2 with
    | some row =>
      if slot < cfg.capacity l.toLayerConfig then
        ({ c with kv := Function.update c.kv slot row }, [.kv slot])
      else (c, [])
    | none => (c, [])
  else (c, [])

/-- `compressed_ready`: the number of cells whose group is complete. -/
def compressedReady (l : LayerConfig) (position : Nat) : Nat :=
  if l.compressRatio = 0 then 0 else (position + 1) / l.compressRatio

/-- The indexer's compressor for a decoded token, with the cell it writes. -/
def feedIndexer (l : Layer X K) (c : LayerCache K) (x : X) (position : Nat) :
    LayerCache K × List Cell :=
  let fed := l.indexer.feed 4 expo c.indexerCompressor x position
  let c := { c with indexerCompressor := fed.1 }
  match fed.2 with
  | some row =>
    ({ c with indexerKv := Function.update c.indexerKv (position / 4) row },
      [.indexer (position / 4)])
  | none => (c, [])

/-- `indexer_select_topk_cuda`: the best cells by score. -/
def selectCells (l : Layer X K) (c : LayerCache K) (x : X) (position ready : Nat) : List Nat :=
  let keep := min ready (max 1 cfg.indexTopk)
  (TopK.repeatedMax K).select
    ((List.range ready).map fun cell => l.indexScore x position (c.indexerKv cell)) keep

/-- The slots of the window of a position. -/
def windowSlots (position : Nat) : List Nat :=
  let len := min (position + 1) cfg.windowSize
  let start := position + 1 - len
  (List.range len).map fun i => (start + i) % cfg.windowSize

/-- The attention of a decoded token (`run_single_token_attention_smoke`): its row goes to the ring,
then the window and the compressed cells are read. -/
def attendCall (l : Layer X K) (c : LayerCache K) (wrote read : List Cell) (cells : List Nat)
    (x : X) (position : Nat) : LayerCall X K :=
  let slots := windowSlots cfg position ++ cells.map (cfg.windowSize + ·)
  let c := { c with
    kv := Function.update c.kv (position % cfg.windowSize) (l.kvRow x position) }
  let rows : Multiset (Row K) := (slots.map c.kv : List (Row K))
  { cache := c
    wrote := wrote ++ [.kv (position % cfg.windowSize)]
    read := read ++ slots.map .kv
    rows := rows
    out := l.block x position rows }

/-- A decoded token in a layer. -/
def decodeCall (l : Layer X K) (c : LayerCache K) (x : X) (position : Nat) : LayerCall X K :=
  let (c, wrote) := runCompressor cfg expo l c x position
  let ready := compressedReady l.toLayerConfig position
  if l.indexes ∧ 0 < ready then
    let (c, wroteIndexer) := feedIndexer expo l c x position
    attendCall cfg l c (wrote ++ wroteIndexer) ((List.range ready).map .indexer)
      (selectCells cfg l c x position ready) x position
  else
    let count := min ready (cfg.capacity l.toLayerConfig - cfg.windowSize)
    attendCall cfg l c wrote [] (List.range count) x position

variable {cfg expo} {l : Layer X K} {c : LayerCache K} {x : X} {position : Nat}

omit [LinearOrder K] in
lemma runCompressor_idle (idle : ¬ l.compresses) :
    runCompressor cfg expo l c x position = (c, []) := if_neg idle

omit [LinearOrder K] in
lemma runCompressor_compressor (compresses : l.compresses) :
    (runCompressor cfg expo l c x position).1.compressor =
      (l.compressor.feed l.compressRatio expo c.compressor x position).1 := by
  simp only [runCompressor, compresses, if_true]
  cases (l.compressor.feed l.compressRatio expo c.compressor x position).2 with
  | none => rfl
  | some row =>
    dsimp only
    split
    · rfl
    · rfl

omit [LinearOrder K] in
lemma runCompressor_ring {slot : Nat} (inside : slot < cfg.windowSize) :
    (runCompressor cfg expo l c x position).1.kv slot = c.kv slot := by
  by_cases compresses : l.compresses
  · simp only [runCompressor, compresses, if_true]
    cases (l.compressor.feed l.compressRatio expo c.compressor x position).2 with
    | none => rfl
    | some row =>
      dsimp only
      split
      · exact Function.update_of_ne (Nat.lt_of_lt_of_le inside (Nat.le_add_right _ _)).ne _ _
      · rfl
  · rw [runCompressor_idle compresses]

omit [LinearOrder K] in
lemma feedIndexer_others :
    (feedIndexer expo l c x position).1.kv = c.kv ∧
      (feedIndexer expo l c x position).1.compressor = c.compressor := by
  simp only [feedIndexer]
  cases (l.indexer.feed 4 expo c.indexerCompressor x position).2 with
  | none => exact ⟨rfl, rfl⟩
  | some row => exact ⟨rfl, rfl⟩

lemma decodeCall_indexed
    (indexes : l.indexes ∧ 0 < compressedReady l.toLayerConfig position) :
    decodeCall cfg expo l c x position =
      attendCall cfg l (feedIndexer expo l (runCompressor cfg expo l c x position).1 x position).1
        ((runCompressor cfg expo l c x position).2 ++
          (feedIndexer expo l (runCompressor cfg expo l c x position).1 x position).2)
        ((List.range (compressedReady l.toLayerConfig position)).map .indexer)
        (selectCells cfg l
          (feedIndexer expo l (runCompressor cfg expo l c x position).1 x position).1 x position
          (compressedReady l.toLayerConfig position)) x position := if_pos indexes

lemma decodeCall_plain
    (plain : ¬ (l.indexes ∧ 0 < compressedReady l.toLayerConfig position)) :
    decodeCall cfg expo l c x position =
      attendCall cfg l (runCompressor cfg expo l c x position).1
        (runCompressor cfg expo l c x position).2 []
        (List.range (min (compressedReady l.toLayerConfig position)
          (cfg.capacity l.toLayerConfig - cfg.windowSize))) x position := if_neg plain

lemma decodeCall_kv : (decodeCall cfg expo l c x position).cache.kv =
    Function.update (runCompressor cfg expo l c x position).1.kv (position % cfg.windowSize)
      (l.kvRow x position) := by
  by_cases indexes : l.indexes ∧ 0 < compressedReady l.toLayerConfig position
  · rw [decodeCall_indexed indexes, attendCall, feedIndexer_others.1]
  · rw [decodeCall_plain indexes, attendCall]

lemma decodeCall_compressor : (decodeCall cfg expo l c x position).cache.compressor =
    (runCompressor cfg expo l c x position).1.compressor := by
  by_cases indexes : l.indexes ∧ 0 < compressedReady l.toLayerConfig position
  · rw [decodeCall_indexed indexes]
    exact feedIndexer_others.2
  · rw [decodeCall_plain indexes]
    rfl

variable (cfg expo)

/-- A decoded token in a layer, recorded. -/
def decodeLayer (l : Layer X K) (s : LayerState K) (position : Nat) (x : X) : LayerState K × X :=
  let call := decodeCall cfg expo l s.cache x position
  (s.record position call, call.out)

end Decode

/-! ## A prompt -/

section Prefill

variable (cfg : EngineConfig)

/-- How a prompt is split, and which of the two attention paths runs: `DSV4_CPP_PREFILL_CHUNK_TOKENS`
and `DSV4_CPP_PREFILL_BATCHED_ATTN`. -/
structure PrefillOptions where
  chunkTokens : Int
  batchedAttn : Bool

/-- `prefill_chunk_size`. -/
def PrefillOptions.chunkSize (opts : PrefillOptions) (n : Nat) : Nat :=
  if opts.chunkTokens ≤ 0 ∨ (n : Int) < opts.chunkTokens then n else opts.chunkTokens.toNat

/-- The outcome of the writes of `copy_rows_to_kv_cache_kernel`, which copies each row in a block of
its own: for every launch (layer, first position, number of rows), slot and column, the row whose
write is the last. It is any row that has this slot. -/
structure CopyOrder (windowSize : Nat) where
  winner : Nat → Nat → Nat → Nat → Nat → Nat
  winner_slot : ∀ layer start rows slot col r, r < rows → (start + r) % windowSize = slot →
    winner layer start rows slot col < rows ∧
      (start + winner layer start rows slot col) % windowSize = slot

/-- `copy_rows_to_kv_cache_kernel`. -/
def copyRows (windowSize start : Nat) (winner : Nat → Nat → Nat) (rows : List (Row K))
    (kv : Nat → Row K) : Nat → Row K := fun slot col =>
  match rows[winner slot col]? with
  | some row => if (start + winner slot col) % windowSize = slot then row col else kv slot col
  | none => kv slot col

/-- A row of `build_prefill_window_indices_kernel`. -/
def prefillWindowIndices (tokens token : Nat) : List Int :=
  let topk := min tokens cfg.windowSize
  let start := token + 1 - cfg.windowSize
  let count := token - start + 1
  (List.range topk).map fun i => if i < count then ((start + i : Nat) : Int) else -1

/-- The rows that an index row selects; negative entries are skipped. -/
def selectRows (kvNorm : List (Row K)) (indices : List Int) : Multiset (Row K) :=
  (indices.filterMap fun i => if i < 0 then none else kvNorm[i.toNat]? : List (Row K))

/-- A chunk in the batched path. `kvNorm` has the rows of the layer's earlier chunks; the attention
reads the rows there and not from the cache. -/
def prefillBatch (l : Layer X K) (winner : Nat → Nat → Nat) (tokens : Nat) (s : LayerState K)
    (kvNorm : List (Row K)) (start : Nat) (xs : List X) :
    LayerState K × List (Row K) × List X :=
  let rows := xs.mapIdx fun i x => l.kvRow x (start + i)
  let kvNorm := kvNorm ++ rows
  let read := fun position => selectRows kvNorm (prefillWindowIndices cfg tokens position)
  ({ cache := { s.cache with kv := copyRows cfg.windowSize start winner rows s.cache.kv }
     reads := fun position =>
       if start ≤ position ∧ position < start + xs.length then read position else s.reads position
     written := fun cell => s.written cell ||
       decide (cell ∈ (List.range xs.length).map fun i => Cell.kv ((start + i) % cfg.windowSize))
     stale := s.stale },
    kvNorm,
    xs.mapIdx fun i x => l.block x (start + i) (read (start + i)))

/-- A prompt token in the other path: its row goes to the ring, and the attention reads the first
slots of the ring. -/
def prefillCall (l : Layer X K) (c : LayerCache K) (x : X) (position : Nat) : LayerCall X K :=
  let c := { c with
    kv := Function.update c.kv (position % cfg.windowSize) (l.kvRow x position) }
  let len := min (cfg.capacity l.toLayerConfig) (min (position + 1) cfg.windowSize)
  let rows : Multiset (Row K) := ((List.range len).map c.kv : List (Row K))
  { cache := c
    wrote := [.kv (position % cfg.windowSize)]
    read := (List.range len).map .kv
    rows := rows
    out := l.block x position rows }

/-- A prompt token, recorded. -/
def prefillToken (l : Layer X K) (s : LayerState K) (position : Nat) (x : X) :
    LayerState K × X :=
  let call := prefillCall cfg l s.cache x position
  (s.record position call, call.out)

end Prefill

end PocketMoE.Engine
