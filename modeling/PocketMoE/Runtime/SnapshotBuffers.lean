import PocketMoE.Lib.Except
import PocketMoE.Runtime.PrefixSnapshot

/-!
# The buffers of a snapshot

What `capture` copies out of a model and what `restore` writes back (`runtime/prefix_snapshot.py`).
A model is what `getattr` finds in it. A tensor is its sizes and its elements; its dtype never
changes, so that an element is a value. The buffers of a model do not overlap.
-/

namespace PocketMoE.Runtime.PrefixSnapshotCache
open PocketMoE.Lib

/-- A tensor. -/
structure Buffer (α : Type) where
  shape : List Nat
  elem : List Nat → α

/-- What an attribute that should be a tensor is. -/
inductive Attr (α : Type)
  | absent
  | none
  | tensor (t : Buffer α)

/-- The tensors that a snapshot records, by their paths from the attention. -/
inductive BufferName
  /-- `kv_cache` -/
  | kvCache
  /-- `compressor.kv_state` -/
  | compressorKvState
  /-- `compressor.score_state` -/
  | compressorScoreState
  /-- `indexer.kv_cache` -/
  | indexerKvCache
  /-- `indexer.compressor.kv_state` -/
  | indexerCompressorKvState
  /-- `indexer.compressor.score_state` -/
  | indexerCompressorScoreState
deriving DecidableEq

/-- The view `buffer[:, start:]`. -/
structure Alias where
  buffer : BufferName
  start : Nat

/-- A `Compressor`. -/
structure CompressorModule (α φ : Type) where
  kvState : Attr α
  scoreState : Attr α
  kvCache : Option Alias
  freqsCis : Option φ

/-- An `Indexer`. -/
structure IndexerModule (α φ : Type) where
  kvCache : Attr α
  compressRatio : Nat
  compressor : Option (CompressorModule α φ)
  freqsCis : Option φ

/-- An `Attention`. -/
structure AttentionModule (α φ : Type) where
  kvCache : Attr α
  windowSize : Nat
  compressRatio : Nat
  compressor : Option (CompressorModule α φ)
  indexer : Option (IndexerModule α φ)
  freqsCis : Option φ

/-- A layer. -/
structure LayerModule (α φ : Type) where
  attn : Option (AttentionModule α φ)

/-- A model. -/
structure ModelModule (α φ : Type) where
  layers : Option (List (Option (LayerModule α φ)))

/-- The exceptions of `_refresh_aliases`. -/
inductive AliasError
  | attribute
  | type
  | index

/-- The buffers of a snapshot, by layer and name. -/
abbrev Buffers (α : Type) := OrderedDict Nat (OrderedDict BufferName (Buffer α))

/-- A snapshot with its buffers. -/
structure Snapshot (α : Type) extends SnapshotEntry where
  buffers : Buffers α

variable {α φ K : Type} [DecidableEq K]

/-- `tensor if isinstance(tensor, torch.Tensor) else None`. -/
def Attr.tensor? : Attr α → Option (Buffer α)
  | .tensor t => some t
  | _ => Option.none

/-- The attribute with a function applied to its tensor. -/
def Attr.map (f : Buffer α → Buffer α) : Attr α → Attr α
  | .tensor t => .tensor (f t)
  | other => other

/-- `_resolve_buffer`. -/
def resolveBuffer (layer : LayerModule α φ) (name : BufferName) : Option (Buffer α) :=
  match layer.attn with
  | none => none
  | some attn =>
    match name with
    | .kvCache => attn.kvCache.tensor?
    | .compressorKvState => attn.compressor.bind fun c => c.kvState.tensor?
    | .compressorScoreState => attn.compressor.bind fun c => c.scoreState.tensor?
    | .indexerKvCache => attn.indexer.bind fun i => i.kvCache.tensor?
    | .indexerCompressorKvState =>
      attn.indexer.bind fun i => i.compressor.bind fun c => c.kvState.tensor?
    | .indexerCompressorScoreState =>
      attn.indexer.bind fun i => i.compressor.bind fun c => c.scoreState.tensor?

namespace AttentionModule

/-- The attention with a function applied to one of its tensors. -/
def modify (attn : AttentionModule α φ) (f : Buffer α → Buffer α) :
    BufferName → AttentionModule α φ
  | .kvCache => { attn with kvCache := attn.kvCache.map f }
  | .compressorKvState =>
    { attn with compressor := attn.compressor.map fun c => { c with kvState := c.kvState.map f } }
  | .compressorScoreState =>
    { attn with
      compressor := attn.compressor.map fun c => { c with scoreState := c.scoreState.map f } }
  | .indexerKvCache =>
    { attn with indexer := attn.indexer.map fun i => { i with kvCache := i.kvCache.map f } }
  | .indexerCompressorKvState =>
    { attn with
      indexer := attn.indexer.map fun i =>
        { i with compressor := i.compressor.map fun c => { c with kvState := c.kvState.map f } } }
  | .indexerCompressorScoreState =>
    { attn with
      indexer := attn.indexer.map fun i =>
        { i with
          compressor := i.compressor.map fun c => { c with scoreState := c.scoreState.map f } } }

end AttentionModule

/-- The layer with a function applied to one of its tensors. -/
def LayerModule.modify (layer : LayerModule α φ) (name : BufferName)
    (f : Buffer α → Buffer α) : LayerModule α φ where
  attn := layer.attn.map fun attn => attn.modify f name

namespace Buffer

/-- The index is one of a tensor with these sizes. -/
def Inside (shape index : List Nat) : Prop := List.Forall₂ (· < ·) index shape

instance (shape index : List Nat) : Decidable (Inside shape index) :=
  inferInstanceAs (Decidable (List.Forall₂ _ _ _))

/-- `dst[slices].copy_(src)`, with the slices `0:size` for the sizes of `src`. -/
def copy (src dst : Buffer α) : Buffer α where
  shape := dst.shape
  elem index := if Inside src.shape index then src.elem index else dst.elem index

/-- The sizes of `src` allow the copy. -/
def Applies (src dst : Buffer α) : Prop :=
  dst.shape.length = src.shape.length ∧
    ¬ (src.shape.zip dst.shape).any (fun sizes => sizes.1 > sizes.2)

instance (src dst : Buffer α) : Decidable (src.Applies dst) :=
  inferInstanceAs (Decidable (_ ∧ _))

/-- The body of the loop of `_apply_buffers`, on the tensor it has found. -/
def overlay (src dst : Buffer α) : Buffer α := if src.Applies dst then src.copy dst else dst

/-- The first elements of a tensor, `tensor[:lens[0], :lens[1], …]`. -/
def narrow (t : Buffer α) (lens : List Nat) : Buffer α where
  shape := List.zipWith min lens t.shape ++ t.shape.drop lens.length
  elem := t.elem

end Buffer

/-- One entry of the loop of `_apply_buffers` over the tensors of a layer. -/
def applyBuffer (layer : LayerModule α φ) (entry : BufferName × Buffer α) : LayerModule α φ :=
  match resolveBuffer layer entry.1 with
  | none => layer
  | some dst => if entry.2.Applies dst then layer.modify entry.1 entry.2.copy else layer

/-- `_refresh_aliases`, on the compressor of an attention. -/
def refreshCompressor (attn : AttentionModule α φ) (compressor : CompressorModule α φ) :
    Except AliasError (CompressorModule α φ) :=
  if compressor.kvCache.isSome ∨ attn.windowSize = 0 then pure compressor
  else
    match attn.kvCache with
    | .absent => throw .attribute
    | .none => throw .type
    | .tensor t =>
      if t.shape.length < 2 then throw .index
      else
        pure { compressor with
          kvCache := some ⟨.kvCache, attn.windowSize⟩
          freqsCis := attn.freqsCis }

/-- `_refresh_aliases`, on the compressor of an indexer. -/
def refreshIndexerCompressor (indexer : IndexerModule α φ) (compressor : CompressorModule α φ) :
    Except AliasError (CompressorModule α φ) :=
  if compressor.kvCache.isSome then pure compressor
  else
    match indexer.kvCache with
    | .absent => throw .attribute
    | .none => pure { compressor with kvCache := none, freqsCis := indexer.freqsCis }
    | .tensor _ =>
      pure { compressor with kvCache := some ⟨.indexerKvCache, 0⟩, freqsCis := indexer.freqsCis }

/-- A step on what is there. -/
def onSome {β : Type} (step : β → Except AliasError β) : Option β → Except AliasError (Option β)
  | none => pure none
  | some b => do
    let b' ← step b
    pure (some b')

/-- `_refresh_aliases`, on the indexer of an attention. -/
def refreshIndexer (attn : AttentionModule α φ) (indexer : IndexerModule α φ) :
    Except AliasError (IndexerModule α φ) := do
  let indexer := { indexer with freqsCis := indexer.freqsCis.or attn.freqsCis }
  let compressor ← onSome (refreshIndexerCompressor indexer) indexer.compressor
  pure { indexer with compressor := compressor }

/-- `_refresh_aliases`. -/
def refreshAliases (layer : LayerModule α φ) : Except AliasError (LayerModule α φ) :=
  match layer.attn with
  | none => pure layer
  | some attn => do
    let compressor ← onSome (refreshCompressor attn) attn.compressor
    let indexer ← onSome (refreshIndexer attn) attn.indexer
    pure { attn := some { attn with compressor := compressor, indexer := indexer } }

/-- One entry of the loop of `_apply_buffers` over the layers. -/
def applyLayer (layers : List (Option (LayerModule α φ)))
    (entry : Nat × OrderedDict BufferName (Buffer α)) :
    Except AliasError (List (Option (LayerModule α φ))) :=
  match layers[entry.1]? with
  | none => pure layers
  | some none => pure layers
  | some (some layer) => do
    let layer ← refreshAliases (entry.2.entries.foldl applyBuffer layer)
    pure (layers.set entry.1 (some layer))

/-- `_apply_buffers`. -/
def applyBuffers (model : ModelModule α φ) (buffers : Buffers α) :
    Except AliasError (ModelModule α φ) :=
  match model.layers with
  | none => pure model
  | some layers => do
    let layers ← buffers.entries.foldlM applyLayer layers
    pure { layers := some layers }

/-- The tensor of an attribute under its name, if it is one. -/
def Attr.named (a : Attr α) (name : BufferName) : List (BufferName × Buffer α) :=
  (a.tensor?.map (name, ·)).toList

/-- `_layer_buffers`. -/
def layerBuffers (layer : LayerModule α φ) : List (BufferName × Buffer α) :=
  match layer.attn with
  | none => []
  | some attn =>
    attn.kvCache.named .kvCache ++
      ((attn.compressor.elim [] fun c =>
          c.kvState.named .compressorKvState ++ c.scoreState.named .compressorScoreState) ++
        attn.indexer.elim [] fun i =>
          i.kvCache.named .indexerKvCache ++
            i.compressor.elim [] fun c =>
              c.kvState.named .indexerCompressorKvState ++
                c.scoreState.named .indexerCompressorScoreState)

/-- `_snapshot_view`: the part of a tensor that positions before `pos` have written. -/
def snapshotView (name : BufferName) (tensor : Buffer α) (pos : Nat) (layer : LayerModule α φ) :
    Buffer α :=
  if tensor.shape.length < 2 then tensor
  else
    let size := tensor.shape.getD 1 0
    match name with
    | .kvCache =>
      let win := layer.attn.elim 0 AttentionModule.windowSize
      let ratio := layer.attn.elim 0 AttentionModule.compressRatio
      tensor.narrow [1, min (win + if 0 < ratio then pos / ratio else 0) size]
    | .indexerKvCache =>
      let ratio := (layer.attn.bind AttentionModule.indexer).elim 0 IndexerModule.compressRatio
      tensor.narrow [1, min (if 0 < ratio then pos / ratio else size) size]
    | _ => tensor.narrow [1]

/-- The names in the order of `_layer_buffers`. -/
def bufferNames : List BufferName :=
  [.kvCache, .compressorKvState, .compressorScoreState, .indexerKvCache, .indexerCompressorKvState,
    .indexerCompressorScoreState]

lemma layerBuffers_eq (layer : LayerModule α φ) : layerBuffers layer =
    bufferNames.filterMap fun name => (resolveBuffer layer name).map (name, ·) := by
  have cons : ∀ {β γ : Type} (f : β → Option γ) (b : β) (l : List β),
      (b :: l).filterMap f = (f b).toList ++ l.filterMap f := by
    intro β γ f b l
    rw [List.filterMap_cons]
    cases f b with
    | none => rfl
    | some c => rfl
  obtain ⟨attn⟩ := layer
  cases attn with
  | none => rfl
  | some attn =>
    obtain ⟨kvCache, windowSize, ratio, compressor, indexer, freqsCis⟩ := attn
    simp only [bufferNames, cons, List.filterMap_nil, List.append_nil]
    refine congrArg (kvCache.named .kvCache ++ ·) ?_
    rw [← List.append_assoc]
    refine congrArg₂ (· ++ ·) ?_ ?_
    · cases compressor with
      | none => rfl
      | some c => rfl
    · cases indexer with
      | none => rfl
      | some i =>
        obtain ⟨kvCache, ratio, compressor, freqsCis⟩ := i
        refine congrArg (kvCache.named .indexerKvCache ++ ·) ?_
        cases compressor with
        | none => rfl
        | some c => rfl

lemma filterMap_keys {κ β : Type} {f : κ → Option (κ × β)} (keyed : ∀ k e, f k = some e → e.1 = k)
    (l : List κ) : ((l.filterMap f).map Prod.fst).Sublist l := by
  induction l with
  | nil => exact List.Sublist.slnil
  | cons k l ih =>
    rw [List.filterMap_cons]
    cases found : f k with
    | none => exact ih.cons k
    | some e =>
      rw [List.map_cons, keyed k e found]
      exact ih.cons_cons k

lemma layerBuffers_nodup (layer : LayerModule α φ) (pos : Nat) :
    (((layerBuffers layer).map fun e => (e.1, snapshotView e.1 e.2 pos layer)).map
      Prod.fst).Nodup := by
  rw [List.map_map, layerBuffers_eq]
  have names : bufferNames.Nodup := by decide
  refine names.sublist (filterMap_keys (fun name e found => ?_) _)
  obtain ⟨_, -, rfl⟩ := Option.map_eq_some_iff.mp found
  rfl

/-- `_clone_buffers`, on one layer. -/
def cloneLayer (layer : LayerModule α φ) (pos : Nat) : OrderedDict BufferName (Buffer α) where
  entries := (layerBuffers layer).map fun e => (e.1, snapshotView e.1 e.2 pos layer)
  nodup := layerBuffers_nodup layer pos

/-- `_clone_buffers`, on the layer with a number: what it records of it. -/
def cloneAt (layers : List (Option (LayerModule α φ))) (pos idx : Nat) :
    Option (Nat × OrderedDict BufferName (Buffer α)) := do
  let layer ← layers[idx]?.join
  if (layerBuffers layer).isEmpty then none else some (idx, cloneLayer layer pos)

lemma cloneAt_eq_some {layers : List (Option (LayerModule α φ))} {pos idx : Nat}
    {e : Nat × OrderedDict BufferName (Buffer α)} (eq : cloneAt layers pos idx = some e) :
    ∃ layer, layers[idx]?.join = some layer ∧ e = (idx, cloneLayer layer pos) := by
  unfold cloneAt at eq
  cases found : layers[idx]?.join with
  | none => simp [found] at eq
  | some layer =>
    have same : (if (layerBuffers layer).isEmpty then none else some (idx, cloneLayer layer pos)) =
        some e := by simpa [found] using eq
    split_ifs at same
    exact ⟨layer, rfl, (Option.some.inj same).symm⟩

/-- `_clone_buffers`. -/
def cloneBuffers (model : ModelModule α φ) (pos : Nat) : Buffers α :=
  match model.layers with
  | none => .empty
  | some layers =>
    { entries := (List.range layers.length).filterMap (cloneAt layers pos)
      nodup := List.nodup_range.sublist (filterMap_keys (fun idx e found => by
        obtain ⟨layer, -, rfl⟩ := cloneAt_eq_some found
        rfl) _) }

/-- The hint is about this entry, and the entry about these tokens. -/
def Accepts (hint : SnapshotHint K) (tokenIds : List Nat) (entry : Snapshot α) : Prop :=
  hint.matchPos ≠ 0 ∧ entry.pos = hint.matchPos ∧ entry.pos < tokenIds.length ∧
    entry.tokenIds = tokenIds.take entry.pos

instance (hint : SnapshotHint K) (tokenIds : List Nat) (entry : Snapshot α) :
    Decidable (Accepts hint tokenIds entry) := inferInstanceAs (Decidable (_ ∧ _))

/-- The entry that a hint names. -/
def hinted (d : OrderedDict K (Snapshot α)) (hint : Option (SnapshotHint K)) :
    Option (SnapshotHint K × K × Snapshot α) :=
  match hint with
  | none => none
  | some hint =>
    match hint.matchKey with
    | none => none
    | some key => (d.get key).map fun entry => (hint, key, entry)

/-- `restore`, with the model: the position, and the entries and the model after it. -/
def restoreModel (d : OrderedDict K (Snapshot α)) (model : ModelModule α φ)
    (hint : Option (SnapshotHint K)) (tokenIds : List Nat) :
    Except AliasError (Nat × OrderedDict K (Snapshot α) × ModelModule α φ) :=
  match hinted d hint with
  | none => pure (0, d, model)
  | some (hint, key, entry) =>
    if Accepts hint tokenIds entry then do
      let model ← applyBuffers model entry.buffers
      pure (entry.pos, d.moveToEnd key, model)
    else pure (0, d, model)

end PocketMoE.Runtime.PrefixSnapshotCache
