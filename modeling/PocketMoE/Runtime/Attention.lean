import PocketMoE.Runtime.Compressor
import PocketMoE.Runtime.Indexer

/-!
# Attention layers and their caches

Model of `Attention.forward` (`runtime.py`) over its window, compressor and indexer. Rows of a batch
are treated alike, so one batch row is modelled. `X` is the type of a token's row between two blocks,
`Q` that of an indexer's query, `K` that of the scalars, and a row of `Attention.kv_cache` has `d`
entries. The projections, with the norms, rotations and quantisations around them, are parameters,
and so is what `sparse_attn` and the rest of a block make of the rows that a query attends.

The first `window_size` rows of the cache are the `ring`, the rows behind them the cells of the
layer's compressor.
-/

namespace PocketMoE.Runtime
open PocketMoE.Tensor PocketMoE.Lib

variable {X Q K : Type} {d : Nat}

/-! ## Chunks through a compressor -/

/-- `forward` of the tokens of a chunk one by one. -/
def Compressor.steps [Field K] (c : Compressor X K) : c.State → Nat → List X → c.State
  | s, _, [] => s
  | s, startPos, x :: rest => c.steps (c.step s x startPos).1 (startPos + 1) rest

/-- The calls that a layer makes for a chunk: one at position 0, one for each token after it. -/
def Compressor.advance [Field K] (c : Compressor X K) (s : c.State) (startPos : Nat) (x : List X) :
    c.State :=
  if startPos = 0 then (c.prefill s x).1 else c.steps s startPos x

/-! ## Compression of a layer -/

/-- `Attention.indexer`: a compressor of its own, the query of a token, and the selector. -/
structure LayerIndexer (X Q K : Type) [LinearOrder K] where
  compressor : Compressor X K
  overlap : compressor.overlap
  query : Nat → X → Q
  selector : Indexer Q (Fin compressor.headDim → K) K
  four : selector.compressRatio = 4
  topk_pos : 0 < selector.indexTopk

/-- What a layer does with the tokens behind its window, by its `compress_ratio`: nothing (0), or
compress them, with an indexer (4) or without one. -/
inductive Compression (X Q K : Type) [LinearOrder K] (d : Nat) where
  | none
  | static (c : Compressor X K) (head : c.headDim = d) (apart : ¬ c.overlap)
  | indexed (c : Compressor X K) (head : c.headDim = d) (overlap : c.overlap)
    (indexer : LayerIndexer X Q K)

/-- The buffers of an indexer, and what the fused kernel's result holds before it is written, by
position. -/
structure LayerIndexer.State [LinearOrder K] (ix : LayerIndexer X Q K) where
  compressor : ix.compressor.State
  junk : Nat → Int

namespace Compression

variable [LinearOrder K]

/-- The buffers behind the window. -/
def State : Compression X Q K d → Type
  | none => Unit
  | static c _ _ => c.State
  | indexed c _ _ ix => c.State × ix.State

/-- `compress_ratio`. -/
def compressRatio : Compression X Q K d → Nat
  | none => 0
  | static c _ _ => c.compressRatio
  | indexed c _ _ _ => c.compressRatio

/-- The buffers as they are registered. -/
def fresh [Zero K] (junk : Nat → Int) : (m : Compression X Q K d) → m.State
  | none => ()
  | static c _ _ => .fresh c 0
  | indexed c _ _ ix => (.fresh c 0, ⟨.fresh ix.compressor 0, junk⟩)

/-- A chunk through the compressors. -/
def advance [Field K] : (m : Compression X Q K d) → m.State → Nat → List X → m.State
  | none, s, _, _ => s
  | static c _ _, s, startPos, x => c.advance s startPos x
  | indexed c _ _ ix, (s, t), startPos, x =>
    (c.advance s startPos x, { t with compressor := ix.compressor.advance t.compressor startPos x })

/-- `compress_topk_idxs`, once the chunk is compressed. -/
def compressTopkIdxs [Zero K] : (m : Compression X Q K d) → m.State → Nat → List X → Nat →
    List (List Int)
  | none, _, _, x, _ => x.map fun _ => []
  | static c _ _, _, startPos, x, offset =>
    getCompressTopkIdxs c.compressRatio x.length startPos offset
  | indexed _ _ _ ix, (_, t), startPos, x, offset =>
    ix.selector.forward (x.mapIdx fun i x => ix.query (startPos + i) x) t.compressor.kvCache startPos
      offset (t.junk startPos)

/-- The compressed cells, as rows of `Attention.kv_cache`. -/
def cell [Zero K] : (m : Compression X Q K d) → m.State → Nat → Fin d → K
  | none, _ => fun _ _ => 0
  | static _ head _, s => fun g j => s.kvCache g (j.cast head.symm)
  | indexed _ head _ _, (s, _) => fun g j => s.kvCache g (j.cast head.symm)

end Compression

/-! ## A layer -/

/-- A block of the model: its attention and, for one token, what follows from the rows that its
query attends. -/
structure Block (X Q K : Type) [LinearOrder K] (d : Nat) where
  windowSize : Nat
  windowSize_pos : 0 < windowSize
  compression : Compression X Q K d
  wkv : Nat → X → Fin d → K
  attend : Nat → X → List (Fin d → K) → X

namespace Block

variable [LinearOrder K]

/-- The buffers of a layer. -/
structure State (b : Block X Q K d) where
  ring : Nat → Fin d → K
  compressed : b.compression.State

/-- The buffers as they are registered. -/
def State.fresh [Zero K] (b : Block X Q K d) (junk : Nat → Int) : b.State where
  ring := 0
  compressed := b.compression.fresh junk

variable (b : Block X Q K d)

/-- `kv` of a chunk. -/
def kvRows (startPos : Nat) (x : List X) : List (Fin d → K) :=
  x.mapIdx fun i x => b.wkv (startPos + i) x

/-- What a chunk writes. -/
def write [Field K] (s : b.State) (startPos : Nat) (x : List X) : b.State where
  ring := writeWindow b.windowSize s.ring startPos (b.kvRows startPos x)
  compressed := b.compression.advance s.compressed startPos x

/-- `topk_idxs` of query `i` of a chunk that has been written. -/
def topkIdxs [Zero K] (s : b.State) (startPos : Nat) (x : List X) (i : Nat) : List Int :=
  ((getWindowTopkIdxs b.windowSize x.length startPos)[i]?).getD [] ++
    ((b.compression.compressTopkIdxs s.compressed startPos x
      (compressOffset b.windowSize x.length startPos))[i]?).getD []

/-- The buffer that `sparse_attn` is given for a chunk that has been written. -/
def buffer [Zero K] (s : b.State) (startPos : Nat) (x : List X) : Nat → Fin d → K :=
  keyBuffer b.windowSize x.length b.compression.compressRatio startPos
    (fun j => ((b.kvRows startPos x)[j]?).getD 0) s.ring (b.compression.cell s.compressed)

/-- The rows that each query of a written chunk attends. -/
def reads [Zero K] (s : b.State) (startPos : Nat) (x : List X) : List (List (Fin d → K)) :=
  (List.range x.length).map fun i => attended (b.buffer s startPos x) (b.topkIdxs s startPos x i)

/-- `Block.forward` on a chunk, with the rows that its queries attend. -/
def forward [Field K] (s : b.State) (startPos : Nat) (x : List X) :
    b.State × List X × List (List (Fin d → K)) :=
  let s := b.write s startPos x
  let reads := b.reads s startPos x
  (s, x.mapIdx fun i x => b.attend (startPos + i) x ((reads[i]?).getD []), reads)

end Block

end PocketMoE.Runtime
