import PocketMoE.Engine.CompressorStream
import PocketMoE.Engine.KvSwap
import Mathlib.Data.Rat.Defs

/-!
# The four compressors of the C++ engines

The call sites of the compressor kernels in `dsv4_engine.cpp`: the layer's compressor and its
indexer's, in `run_safetensors_token_forward_impl` (modelled in `Engine.Layer`) and in the GGUF
engine's layer step, which is here with the KV cache of `Engine.KvSwap` behind it.

Each run feeds the tokens of a layer one position at a time from a reset state, and is compared with
Python's one-token path (`Compressor.oneToken`). A step lemma for each site says which cells it
writes; `Streams.next` does the rest. The indexer's compressor of the safetensors engine is fed from
the first complete group on, so its rows are all there two groups later.
-/

namespace PocketMoE.Engine
open PocketMoE.Runtime

variable {X K : Type} [Field K]

/-! ## The safetensors engine -/

section Safetensors

variable [LinearOrder K]

/-- The caches of a layer after its first `n` decoded tokens. -/
def decodeCaches (cfg : EngineConfig) (expo : K → K) (l : Layer X K) (c : LayerCache K)
    (tok : Nat → X) : Nat → LayerCache K
  | 0 => c
  | n + 1 => (decodeCall cfg expo l (decodeCaches cfg expo l c tok n) (tok n) n).cache

variable {cfg : EngineConfig} {expo : K → K} {l : Layer X K} {c : LayerCache K} {x : X}
  {position : Nat}

omit [LinearOrder K] in
lemma runCompressor_kept {g : Nat}
    (kept : (position + 1) % l.compressRatio = 0 → g ≠ position / l.compressRatio) :
    (runCompressor cfg expo l c x position).1.kv (cfg.windowSize + g) =
      c.kv (cfg.windowSize + g) := by
  by_cases compresses : l.compresses
  · simp only [runCompressor, compresses, if_true, DeviceCompressor.feed]
    by_cases full : (position + 1) % l.compressRatio = 0
    · have other := kept full
      simp only [if_pos full]
      split
      · exact Function.update_of_ne (by omega) _ _
      · rfl
    · simp only [if_neg full]
  · rw [runCompressor_idle compresses]

omit [LinearOrder K] in
lemma runCompressor_stored (compresses : l.compresses) {row : Row K}
    (fed : (l.compressor.feed l.compressRatio expo c.compressor x position).2 = some row)
    (fits : cfg.windowSize + position / l.compressRatio < cfg.capacity l.toLayerConfig) :
    (runCompressor cfg expo l c x position).1.kv (cfg.windowSize + position / l.compressRatio) =
      row := by
  simp only [runCompressor, compresses, if_true, fed, if_pos fits, Function.update_self]

omit [LinearOrder K] in
lemma runCompressor_indexer :
    (runCompressor cfg expo l c x position).1.indexerKv = c.indexerKv ∧
      (runCompressor cfg expo l c x position).1.indexerCompressor = c.indexerCompressor := by
  by_cases compresses : l.compresses
  · simp only [runCompressor, compresses, if_true]
    cases (l.compressor.feed l.compressRatio expo c.compressor x position).2 with
    | none => exact ⟨rfl, rfl⟩
    | some row =>
      dsimp only
      split
      · exact ⟨rfl, rfl⟩
      · exact ⟨rfl, rfl⟩
  · rw [runCompressor_idle compresses]
    exact ⟨rfl, rfl⟩

lemma decodeCall_cell (g : Nat) :
    (decodeCall cfg expo l c x position).cache.kv (cfg.windowSize + g) =
      (runCompressor cfg expo l c x position).1.kv (cfg.windowSize + g) := by
  have ring := Nat.mod_lt position cfg.windowSize_pos
  rw [decodeCall_kv, Function.update_of_ne (by omega)]

omit [LinearOrder K] in
lemma feedIndexer_indexer :
    (feedIndexer expo l c x position).1.indexerCompressor =
        (l.indexer.feed 4 expo c.indexerCompressor x position).1 ∧
      (feedIndexer expo l c x position).1.indexerKv =
        match (l.indexer.feed 4 expo c.indexerCompressor x position).2 with
        | some row => Function.update c.indexerKv (position / 4) row
        | none => c.indexerKv := by
  simp only [feedIndexer]
  cases (l.indexer.feed 4 expo c.indexerCompressor x position).2 with
  | none => exact ⟨rfl, rfl⟩
  | some row => exact ⟨rfl, rfl⟩

lemma decodeCall_fed (fed : l.indexes ∧ 0 < compressedReady l.toLayerConfig position) :
    (decodeCall cfg expo l c x position).cache.indexerCompressor =
        (l.indexer.feed 4 expo c.indexerCompressor x position).1 ∧
      (decodeCall cfg expo l c x position).cache.indexerKv =
        match (l.indexer.feed 4 expo c.indexerCompressor x position).2 with
        | some row => Function.update c.indexerKv (position / 4) row
        | none => c.indexerKv := by
  obtain ⟨cells, state⟩ : _ ∧ _ := @runCompressor_indexer X K _ cfg expo l c x position
  have feeds := @feedIndexer_indexer X K _ expo l (runCompressor cfg expo l c x position).1 x position
  rw [cells, state] at feeds
  rw [decodeCall_indexed fed]
  exact feeds

lemma decodeCall_unfed (unfed : ¬ (l.indexes ∧ 0 < compressedReady l.toLayerConfig position)) :
    (decodeCall cfg expo l c x position).cache.indexerCompressor = c.indexerCompressor := by
  rw [decodeCall_plain unfed]
  exact runCompressor_indexer.2

variable {comp : Compressor X K} {finish : Nat → (Fin comp.headDim → K) → Row K} {tok : Nat → X}
  {kvCache : Nat → Fin comp.headDim → K} {cache : LayerCache K} {n : Nat}

lemma decodeCaches_compressor (compresses : l.compresses)
    (loaded : l.compressor = comp.device finish) (ratio : l.compressRatio = comp.compressRatio)
    (reset : cache.compressor = CompressorState.reset) (n : Nat) :
    comp.Streams finish tok n (comp.oneToken kvCache tok n)
      (decodeCaches cfg comp.expo l cache tok n).compressor
      (fun g => (decodeCaches cfg comp.expo l cache tok n).kv (cfg.windowSize + g))
      (fun g => cfg.windowSize + g < cfg.capacity l.toLayerConfig) := by
  induction n with
  | zero =>
    refine ⟨?_, fun g lt => ?_⟩
    · rw [decodeCaches, reset]
      exact .reset (fun _ _ _ => rfl) fun _ _ _ => rfl
    · rw [Nat.zero_div] at lt
      exact absurd lt (Nat.not_lt_zero g)
  | succ n ih =>
    have fed : (decodeCaches cfg comp.expo l cache tok (n + 1)).compressor =
        ((comp.device finish).feed comp.compressRatio comp.expo
          (decodeCaches cfg comp.expo l cache tok n).compressor (tok n) n).1 := by
      rw [decodeCaches, decodeCall_compressor, runCompressor_compressor compresses, loaded, ratio]
    rw [fed]
    refine ih.next (fun g _ kept => ?_) fun row new fits => ?_
    · rw [decodeCaches, decodeCall_cell]
      exact runCompressor_kept (by rw [ratio]; exact kept)
    · rw [← loaded, ← ratio] at new
      rw [← ratio] at fits ⊢
      rw [decodeCaches, decodeCall_cell]
      exact runCompressor_stored compresses new fits

/-- Where the state of the indexer's compressor is right after `n` tokens: in the second half once
the first group is complete, everywhere once the second one is. -/
def indexerFrom (n : Nat) : Nat := if n < 4 then 8 else if n < 8 then 4 else 0

omit [Field K] [LinearOrder K] in
lemma compressedReady_pos (four : l.compressRatio = 4) :
    0 < compressedReady l.toLayerConfig position ↔ 3 ≤ position := by
  rw [compressedReady, if_neg (by omega), four]
  omega

lemma decodeCaches_fed (indexes : l.indexes) (loaded : l.indexer = comp.device finish)
    (ratio : comp.compressRatio = 4) (late : 3 ≤ n) :
    (decodeCaches cfg comp.expo l cache tok (n + 1)).indexerCompressor =
        ((comp.device finish).feed comp.compressRatio comp.expo
          (decodeCaches cfg comp.expo l cache tok n).indexerCompressor (tok n) n).1 ∧
      (decodeCaches cfg comp.expo l cache tok (n + 1)).indexerKv =
        match ((comp.device finish).feed comp.compressRatio comp.expo
          (decodeCaches cfg comp.expo l cache tok n).indexerCompressor (tok n) n).2 with
        | some row => Function.update (decodeCaches cfg comp.expo l cache tok n).indexerKv (n / 4) row
        | none => (decodeCaches cfg comp.expo l cache tok n).indexerKv := by
  rw [ratio, ← loaded]
  exact decodeCall_fed ⟨indexes, (compressedReady_pos indexes.1).mpr late⟩

lemma decodeCaches_indexer (indexes : l.indexes) (loaded : l.indexer = comp.device finish)
    (ratio : comp.compressRatio = 4)
    (reset : cache.indexerCompressor = CompressorState.reset) (n : Nat) :
    (n ≤ 3 → (decodeCaches cfg comp.expo l cache tok n).indexerCompressor =
        CompressorState.reset) ∧
      comp.Matches (indexerFrom n) n (comp.oneToken kvCache tok n)
        (decodeCaches cfg comp.expo l cache tok n).indexerCompressor := by
  have slots : comp.slots = 8 := by rw [Compressor.slots_overlap ratio, ratio]
  have offset : comp.offset = 4 := by rw [Compressor.offset_overlap ratio, ratio]
  -- nothing is asked of a state from slot 8 on
  have early {m : Nat} (le : m ≤ 3) : comp.Matches (indexerFrom m) m
      (comp.oneToken kvCache tok m) CompressorState.reset := by
    rw [indexerFrom, if_pos (by omega)]
    exact .reset (fun i lt le => absurd lt (by omega)) fun i lt le => absurd lt (by omega)
  induction n with
  | zero =>
    rw [decodeCaches, reset]
    exact ⟨fun _ => rfl, early (Nat.zero_le 3)⟩
  | succ n ih =>
    obtain ⟨idle, same⟩ := ih
    by_cases late : 3 ≤ n
    · refine ⟨by omega, ?_⟩
      rw [(decodeCaches_fed indexes loaded ratio late).1]
      refine same.next ?_
      rw [ratio, offset, indexerFrom, indexerFrom]
      split_ifs <;> omega
    · have unfed : ¬ (l.indexes ∧ 0 < compressedReady l.toLayerConfig n) :=
        fun fed => late ((compressedReady_pos indexes.1).mp fed.2)
      have kept : (decodeCaches cfg comp.expo l cache tok (n + 1)).indexerCompressor =
          CompressorState.reset := (decodeCall_unfed unfed).trans (idle (by omega))
      rw [kept]
      exact ⟨fun _ => rfl, early (by omega)⟩

lemma decodeCaches_indexer_streams (indexes : l.indexes) (loaded : l.indexer = comp.device finish)
    (ratio : comp.compressRatio = 4)
    (reset : cache.indexerCompressor = CompressorState.reset) (late : 8 ≤ n) :
    comp.Streams finish tok n (comp.oneToken kvCache tok n)
      (decodeCaches cfg comp.expo l cache tok n).indexerCompressor
      (decodeCaches cfg comp.expo l cache tok n).indexerKv (2 ≤ ·) := by
  induction n, late using Nat.le_induction with
  | base =>
    refine ⟨(decodeCaches_indexer indexes loaded ratio reset 8).2, fun g lt ge => ?_⟩
    rw [ratio] at lt
    omega
  | succ n late ih =>
    obtain ⟨state, cells⟩ := @decodeCaches_fed X K _ _ cfg l comp finish tok cache n indexes loaded
      ratio (by omega)
    rw [state, cells]
    refine ih.next (fun g _ kept => ?_) fun row new _ => ?_
    · rw [ih.state.feed_cell]
      by_cases full : (n + 1) % comp.compressRatio = 0
      · rw [if_pos full]
        have other := kept full
        rw [ratio] at other
        exact Function.update_of_ne other _ _
      · rw [if_neg full]
    · rw [new, ratio]
      exact Function.update_self _ _ _

end Safetensors

/-! ## The GGUF engine -/

/-- The compressors of a layer: its own (`d_compressor_w`), and its indexer's (`d_indexer_w.comp`),
whose ratio is 4. -/
structure GgufCompressors (X K : Type) where
  compressor : DeviceCompressor X K
  indexer : Option (DeviceCompressor X K)

/-- `GgufSparseLayerState`. -/
structure GgufSparseState (K : Type) where
  compressor : CompressorState K
  indexerKvCache : Nat → Row K
  indexerComp : CompressorState K

/-- The state as it is allocated: buffers of zeros, scores of minus infinity. -/
def GgufSparseState.init : GgufSparseState K where
  compressor := .reset
  indexerKvCache := fun _ _ => 0
  indexerComp := .reset

/-- What a layer gets for a decoded token: the input of its compressors, the row for the ring, and
the chunks that are selected. -/
structure GgufInput (X K : Type) where
  x : X
  row : Row K
  selected : List Nat

/-- The compressors of a layer for a token, and the chunk that is complete. -/
def GgufCompressors.feed (w : GgufCompressors X K) (ratio : Nat) (expo : K → K)
    (s : GgufSparseState K) (x : X) (position : Nat) : GgufSparseState K × Option (Row K) :=
  let fed := w.compressor.feed ratio expo s.compressor x position
  let s := { s with compressor := fed.1 }
  match w.indexer with
  | none => (s, fed.2)
  | some ic =>
    let idx := ic.feed 4 expo s.indexerComp x position
    let s := { s with indexerComp := idx.1 }
    match idx.2 with
    | some row =>
      ({ s with indexerKvCache := Function.update s.indexerKvCache (position / 4) row }, fed.2)
    | none => (s, fed.2)

namespace GgufLayerConfig

variable (cfg : GgufLayerConfig) (expo : K → K) (w : GgufCompressors X K)

/-- A decoded token in a layer with compressors. -/
def decode (s : GgufLayer (Row K) × GgufSparseState K) (t : GgufInput X K) (position : Nat) :
    Except String (GgufLayer (Row K) × GgufSparseState K) :=
  let (sparse, pooled) := w.feed cfg.ratio expo s.2 t.x position
  -- without a complete group the chunk is not looked at
  match cfg.step s.1 ⟨position, t.row, pooled.getD fun _ => 0, t.selected⟩ with
  | .error e => .error e
  | .ok (layer, _) => .ok (layer, sparse)

/-- The first `n` decoded tokens in a layer. -/
def decodeAll (s : GgufLayer (Row K) × GgufSparseState K) (input : Nat → GgufInput X K) :
    Nat → Except String (GgufLayer (Row K) × GgufSparseState K)
  | 0 => .ok s
  | n + 1 =>
    match decodeAll s input n with
    | .error e => .error e
    | .ok s => cfg.decode expo w s (input n) n

/-- What `indexer_select_topk_cuda` selects: different chunks of those that are ready, no more of them
than there are slots. -/
def SelectsReady (selected : List Nat) (position : Nat) : Prop :=
  selected.Nodup ∧ selected.length ≤ min cfg.gpuChunks cfg.compressedCap ∧
    ∀ g ∈ selected, g < min ((position + 1) / cfg.ratio) cfg.compressedCap

instance (selected : List Nat) (position : Nat) : Decidable (cfg.SelectsReady selected position) := by
  unfold SelectsReady
  infer_instance

variable {cfg expo w} {R : Type} {plain : Nat → R} {t : GgufToken R}

/-! ### The cache with all chunks -/

lemma storeCell_resident (plain : Nat → R) (t : GgufToken R) :
    cfg.storeCell (cfg.withoutSwap plain) t = .ok (cfg.withoutSwap
      (if (t.position + 1) % cfg.ratio = 0 ∧ t.position / cfg.ratio < cfg.compressedCap then
        Function.update plain (cfg.window + t.position / cfg.ratio) t.pooled
      else plain)) := by
  have cap := cfg.compressedCap_pos
  have room : cfg.window + t.position / cfg.ratio < max 1 (cfg.window + max 1 cfg.compressedCap) ↔
      t.position / cfg.ratio < cfg.compressedCap := by omega
  rw [storeCell]
  by_cases full : (t.position + 1) % cfg.ratio = 0
  · simp only [full, withoutSwap, KvSwap.stageNewChunk, room, true_and, if_true]
    by_cases inside : t.position / cfg.ratio < cfg.compressedCap
    · simp only [if_pos inside]
      rfl
    · simp only [if_neg inside]
  · simp only [full, false_and, if_false]

lemma prepare_resident (plain : Nat → R) (t : GgufToken R) :
    ∃ plain' indices, cfg.prepare (cfg.withoutSwap plain) t =
        .ok (cfg.withoutSwap plain', indices) ∧
      ∀ g, plain' (cfg.window + g) = plain (cfg.window + g) := by
  have ring := Nat.mod_lt t.position cfg.window_pos
  have cap := cfg.compressedCap_pos
  by_cases sparse : cfg.sparse t.position
  · refine ⟨Function.update plain (t.position % cfg.window) t.row, cfg.chunkIndices t t.selected, ?_,
      fun g => ?_⟩
    · simp only [prepare, if_pos sparse, withoutSwap, KvSwap.swapInSelected]
      exact if_neg (by omega)
    · exact Function.update_of_ne (by omega) _ _
  · have early : t.position < cfg.window := by
      have := cfg.threshold_le
      unfold GgufLayerConfig.sparse at sparse
      omega
    refine ⟨Function.update plain t.position t.row, (List.range (t.position + 1)).map Int.ofNat, ?_,
      fun g => ?_⟩
    · simp only [prepare, if_neg sparse, withoutSwap]
      exact if_pos (by omega)
    · exact Function.update_of_ne (by omega) _ _

lemma step_resident (plain : Nat → R) (t : GgufToken R) :
    ∃ plain' indices, cfg.step (cfg.withoutSwap plain) t = .ok (cfg.withoutSwap plain', indices) ∧
      (∀ g, ((t.position + 1) % cfg.ratio = 0 → g ≠ t.position / cfg.ratio) →
        plain' (cfg.window + g) = plain (cfg.window + g)) ∧
      ((t.position + 1) % cfg.ratio = 0 → t.position / cfg.ratio < cfg.compressedCap →
        plain' (cfg.window + t.position / cfg.ratio) = t.pooled) := by
  obtain ⟨plain', indices, ran, cells⟩ := @prepare_resident cfg R
    (if (t.position + 1) % cfg.ratio = 0 ∧ t.position / cfg.ratio < cfg.compressedCap then
      Function.update plain (cfg.window + t.position / cfg.ratio) t.pooled else plain) t
  refine ⟨plain', indices, ?_, fun g kept => ?_, fun full inside => ?_⟩
  · simp only [step, storeCell_resident, ran]
  · rw [cells]
    split_ifs with stores
    · have other := kept stores.1
      exact Function.update_of_ne (by omega) _ _
    · rfl
  · rw [cells, if_pos ⟨full, inside⟩, Function.update_self]

/-! ### The compressors -/

variable {s : GgufSparseState K} {x : X} {position : Nat}

lemma feed_compressor : (w.feed cfg.ratio expo s x position).1.compressor =
    (w.compressor.feed cfg.ratio expo s.compressor x position).1 := by
  rw [GgufCompressors.feed]
  cases w.indexer with
  | none => rfl
  | some ic =>
    dsimp only
    cases (ic.feed 4 expo s.indexerComp x position).2 with
    | none => rfl
    | some row => rfl

lemma feed_pooled : (w.feed cfg.ratio expo s x position).2 =
    (w.compressor.feed cfg.ratio expo s.compressor x position).2 := by
  rw [GgufCompressors.feed]
  cases w.indexer with
  | none => rfl
  | some ic =>
    dsimp only
    cases (ic.feed 4 expo s.indexerComp x position).2 with
    | none => rfl
    | some row => rfl

lemma feed_indexer {ic : DeviceCompressor X K} (has : w.indexer = some ic) :
    (w.feed cfg.ratio expo s x position).1.indexerComp =
        (ic.feed 4 expo s.indexerComp x position).1 ∧
      (w.feed cfg.ratio expo s x position).1.indexerKvCache =
        match (ic.feed 4 expo s.indexerComp x position).2 with
        | some row => Function.update s.indexerKvCache (position / 4) row
        | none => s.indexerKvCache := by
  rw [GgufCompressors.feed, has]
  dsimp only
  cases (ic.feed 4 expo s.indexerComp x position).2 with
  | none => exact ⟨rfl, rfl⟩
  | some row => exact ⟨rfl, rfl⟩

/-- The states of the compressors after `n` tokens; they do not read the KV cache. -/
def sparseAfter (cfg : GgufLayerConfig) (expo : K → K) (w : GgufCompressors X K) (tok : Nat → X) :
    Nat → GgufSparseState K
  | 0 => .init
  | n + 1 => (w.feed cfg.ratio expo (sparseAfter cfg expo w tok n) (tok n) n).1

variable {comp : Compressor X K} {finish : Nat → (Fin comp.headDim → K) → Row K} {tok : Nat → X}
  {kvCache : Nat → Fin comp.headDim → K}

lemma sparseAfter_indexer (has : w.indexer = some (comp.device finish))
    (ratio : comp.compressRatio = 4) (n : Nat) :
    comp.Streams finish tok n (comp.oneToken kvCache tok n)
      (cfg.sparseAfter comp.expo w tok n).indexerComp
      (cfg.sparseAfter comp.expo w tok n).indexerKvCache (fun _ => True) := by
  induction n with
  | zero =>
    refine ⟨.reset (fun _ _ _ => rfl) fun _ _ _ => rfl, fun g lt => ?_⟩
    rw [Nat.zero_div] at lt
    exact absurd lt (Nat.not_lt_zero g)
  | succ n ih =>
    obtain ⟨state, cells⟩ := @feed_indexer X K _ cfg comp.expo w
      (cfg.sparseAfter comp.expo w tok n) (tok n) n _ has
    rw [sparseAfter, state, cells, ← ratio]
    refine ih.next (fun g _ kept => ?_) fun row new _ => ?_
    · rw [ih.state.feed_cell]
      by_cases full : (n + 1) % comp.compressRatio = 0
      · rw [if_pos full]
        exact Function.update_of_ne (kept full) _ _
      · rw [if_neg full]
    · rw [new]
      exact Function.update_self _ _ _

/-! ### Runs -/

variable {input : Nat → GgufInput X K} {n : Nat}

/-- What a layer gets at position `n`, with the chunk that its compressor has pooled. -/
def tokenAt (cfg : GgufLayerConfig) (expo : K → K) (w : GgufCompressors X K)
    (input : Nat → GgufInput X K) (n : Nat) : GgufToken (Row K) where
  position := n
  row := (input n).row
  pooled := (w.feed cfg.ratio expo (cfg.sparseAfter expo w (fun p => (input p).x) n)
    (input n).x n).2.getD fun _ => 0
  selected := (input n).selected

lemma decodeAll_succ {start layer layer' : GgufLayer (Row K)} {indices : List Int}
    (run : cfg.decodeAll expo w (start, .init) input n =
      .ok (layer, cfg.sparseAfter expo w (fun p => (input p).x) n))
    (ran : cfg.step layer (cfg.tokenAt expo w input n) = .ok (layer', indices)) :
    cfg.decodeAll expo w (start, .init) input (n + 1) =
      .ok (layer', cfg.sparseAfter expo w (fun p => (input p).x) (n + 1)) := by
  rw [tokenAt] at ran
  simp only [decodeAll, run, decode, ran, sparseAfter]

lemma decodeAll_resident (cfg : GgufLayerConfig) (comp : Compressor X K)
    (kvCache : Nat → Fin comp.headDim → K) (finish : Nat → (Fin comp.headDim → K) → Row K)
    (w : GgufCompressors X K) (input : Nat → GgufInput X K) (n : Nat) :
    ∃ plain, cfg.decodeAll comp.expo w (cfg.resident fun _ => 0, .init) input n =
        .ok (cfg.withoutSwap plain, cfg.sparseAfter comp.expo w (fun p => (input p).x) n) ∧
      (w.compressor = comp.device finish → cfg.ratio = comp.compressRatio →
        comp.Streams finish (fun p => (input p).x) n
          (comp.oneToken kvCache (fun p => (input p).x) n)
          (cfg.sparseAfter comp.expo w (fun p => (input p).x) n).compressor
          (fun g => plain (cfg.window + g)) (· < cfg.compressedCap)) := by
  induction n with
  | zero =>
    refine ⟨_, rfl, fun loaded ratio => ⟨.reset (fun _ _ _ => rfl) fun _ _ _ => rfl, fun g lt => ?_⟩⟩
    rw [Nat.zero_div] at lt
    exact absurd lt (Nat.not_lt_zero g)
  | succ n ih =>
    obtain ⟨plain, run, same⟩ := ih
    obtain ⟨plain', indices, ran, kept, stored⟩ :=
      @step_resident cfg _ plain (cfg.tokenAt comp.expo w input n)
    refine ⟨plain', decodeAll_succ run ran, fun loaded ratio => ?_⟩
    have fed : (cfg.sparseAfter comp.expo w (fun p => (input p).x) (n + 1)).compressor =
        ((comp.device finish).feed comp.compressRatio comp.expo
          (cfg.sparseAfter comp.expo w (fun p => (input p).x) n).compressor (input n).x n).1 := by
      rw [sparseAfter, feed_compressor, loaded, ratio]
    rw [fed]
    refine (same loaded ratio).next (fun g _ other => ?_) fun row new inside => ?_
    · exact kept g (by rw [ratio]; exact other)
    · have full : (n + 1) % comp.compressRatio = 0 := by
        by_contra opn
        rw [(same loaded ratio).state.feed_cell, if_neg opn] at new
        exact nomatch new
      have pooled : (cfg.tokenAt comp.expo w input n).pooled = row := by
        rw [tokenAt]
        dsimp only
        rw [feed_pooled, loaded, ratio, new]
        rfl
      rw [← ratio] at full inside ⊢
      exact (stored full inside).trans pooled

lemma decodeAll_swapped (cfg : GgufLayerConfig) (expo : K → K) (w : GgufCompressors X K)
    (host : Nat → Row K) (input : Nat → GgufInput X K) (n : Nat)
    (ready : ∀ p, p < n → cfg.sparse p → cfg.SelectsReady (input p).selected p) :
    ∃ plain kv st past,
      cfg.decodeAll expo w (cfg.resident fun _ => 0, .init) input n =
        .ok (cfg.withoutSwap plain, cfg.sparseAfter expo w (fun p => (input p).x) n) ∧
      cfg.decodeAll expo w (cfg.swapped (fun _ => 0) host, .init) input n =
        .ok (cfg.withSwap kv st, cfg.sparseAfter expo w (fun p => (input p).x) n) ∧
      cfg.Mirrors past st kv plain ∧
      ∀ g, cfg.Stored past g ↔ g < cfg.compressedCap ∧ g < n / cfg.ratio := by
  induction n with
  | zero =>
    obtain ⟨st, start, same⟩ := Mirrors.start cfg (fun _ : Nat => (0 : K)) host
    refine ⟨_, _, st, [], rfl, congrArg (fun layer => Except.ok (layer, _)) start, same, fun g => ?_⟩
    rw [Nat.zero_div]
    exact ⟨fun stored => absurd stored.2 (by simp), fun h => absurd h.2 (Nat.not_lt_zero g)⟩
  | succ n ih =>
    obtain ⟨plain, kv, st, past, run, run', same, stored⟩ :=
      ih fun p lt => ready p (Nat.lt_succ_of_lt lt)
    have chunks (g : Nat) : cfg.Stored (past ++ [cfg.tokenAt expo w input n]) g ↔
        g < cfg.compressedCap ∧ g < (n + 1) / cfg.ratio := by
      rw [stored_append, stored, Nat.succ_div]
      change _ ∨ g < cfg.compressedCap ∧ (n + 1) % cfg.ratio = 0 ∧ n / cfg.ratio = g ↔ _
      by_cases full : (n + 1) % cfg.ratio = 0
      · rw [if_pos (Nat.dvd_of_mod_eq_zero full)]
        omega
      · rw [if_neg fun dvd => full (Nat.mod_eq_zero_of_dvd dvd)]
        omega
    have selects : cfg.Selects past (cfg.tokenAt expo w input n) := fun sparse => by
      obtain ⟨nodup, few, inside⟩ := ready n (Nat.lt_succ_self n) sparse
      refine ⟨nodup, few, fun g member => (chunks g).mpr ?_⟩
      have := inside g member
      omega
    obtain ⟨st', kv', plain', is, is', steps, steps', same', _⟩ := same.step selects
    exact ⟨plain', kv', st', _, decodeAll_succ run steps', decodeAll_succ run' steps, same', chunks⟩

end GgufLayerConfig

/-! ## All call sites -/

/-- The streaming compressors of both engines follow Python's. Python's one-token path pools group
`g` to `pooled tok g`. So do the engines, each into the cell `g`: the compressor of a safetensors
layer and its indexer's once it has seen two groups begin, that of a GGUF layer, whether it keeps all
chunks or swaps them, and its indexer's. The state is Python's but for the rows that nothing reads
any more (`Compressor.Agrees`). -/
theorem streaming_agrees [LinearOrder K] (c : Compressor X K)
    (finish : Nat → (Fin c.headDim → K) → Row K) (kvCache : Nat → Fin c.headDim → K)
    (tok : Nat → X) (n : Nat) :
    ∃ s, c.calls (.fresh c kvCache) 0 ((List.range n).map fun p => [tok p]) = some s ∧
      (∀ g, g < n / c.compressRatio →
        s.kvCache g = c.finish (g * c.compressRatio) (c.pooled tok g)) ∧
      (∀ (cfg : EngineConfig) (l : Layer X K) (s₀ : LayerState K),
        let cache := decodeCaches cfg c.expo l s₀.reset.cache tok n
        (l.compresses → l.compressor = c.device finish → l.compressRatio = c.compressRatio →
          c.Streams finish tok n s cache.compressor (fun g => cache.kv (cfg.windowSize + g))
            (fun g => cfg.windowSize + g < cfg.capacity l.toLayerConfig)) ∧
        (l.indexes → l.indexer = c.device finish → c.compressRatio = 4 → 8 ≤ n →
          c.Streams finish tok n s cache.indexerCompressor cache.indexerKv (2 ≤ ·))) ∧
      ∀ (cfg : GgufLayerConfig) (w : GgufCompressors X K) (row : Nat → Row K)
        (selected : Nat → List Nat) (host : Nat → Row K),
        let input := fun p => GgufInput.mk (tok p) (row p) (selected p)
        (∃ layer sparse, cfg.decodeAll c.expo w (cfg.resident fun _ => 0, .init) input n =
            .ok (layer, sparse) ∧
          (w.compressor = c.device finish → cfg.ratio = c.compressRatio →
            c.Streams finish tok n s sparse.compressor (fun g => layer.kv (cfg.window + g))
              (· < cfg.compressedCap)) ∧
          (w.indexer = some (c.device finish) → c.compressRatio = 4 →
            c.Streams finish tok n s sparse.indexerComp sparse.indexerKvCache fun _ => True)) ∧
        ((∀ p, p < n → cfg.sparse p → cfg.SelectsReady (selected p) p) →
          ∃ layer sparse st,
            cfg.decodeAll c.expo w (cfg.swapped (fun _ => 0) host, .init) input n =
              .ok (layer, sparse) ∧ layer.swap = some st ∧
            (w.compressor = c.device finish → cfg.ratio = c.compressRatio →
              c.Streams finish tok n s sparse.compressor st.hostCompressedKv
                (· < cfg.compressedCap)) ∧
            (w.indexer = some (c.device finish) → c.compressRatio = 4 →
              c.Streams finish tok n s sparse.indexerComp sparse.indexerKvCache
                fun _ => True)) := by
  refine ⟨_, c.calls_oneToken kvCache tok n, fun g lt => ?_, fun cfg l s₀ => ⟨?_, ?_⟩,
    fun cfg w row selected host => ?_⟩
  · rw [(c.oneToken_follows kvCache tok n).cells, if_pos lt]
    rfl
  · exact fun compresses loaded ratio => decodeCaches_compressor compresses loaded ratio rfl n
  · exact fun indexes loaded ratio late =>
      decodeCaches_indexer_streams indexes loaded ratio rfl late
  · let input := fun p => GgufInput.mk (tok p) (row p) (selected p)
    obtain ⟨plain, run, streams⟩ := cfg.decodeAll_resident c kvCache finish w input n
    refine ⟨⟨_, _, run, streams, fun has ratio => cfg.sparseAfter_indexer has ratio n⟩,
      fun ready => ?_⟩
    obtain ⟨plain', kv, st, past, run', runSwapped, same, stored⟩ :=
      cfg.decodeAll_swapped c.expo w host input n ready
    have plains : plain = plain' := by
      have := Except.ok.inj (run.symm.trans run')
      exact congrArg (fun s => s.1.kv) this
    refine ⟨_, _, st, runSwapped, rfl, fun loaded ratio => ?_,
      fun has ratio => cfg.sparseAfter_indexer has ratio n⟩
    obtain ⟨state, cells⟩ := streams loaded ratio
    refine ⟨state, fun g lt inside => ?_⟩
    rw [same.host g ((same.stored g).mpr ((stored g).mpr ⟨inside, by rw [ratio]; exact lt⟩)),
      ← plains]
    exact cells g lt inside

/-! ### Overlapping windows of a single column -/

/-- Every token has the row 1 and the score 0; overlapping groups of four. -/
def unitRows : Compressor Unit ℚ where
  compressRatio := 4
  ratio_pos := Compressor.ratio_four_pos
  headDim := 1
  ape := fun _ _ => 0
  wkv := fun _ _ => 1
  wgate := fun _ _ => 0
  expo := fun _ => 1
  finish := fun _ cell => cell

/-- A pooled row as it is. -/
def unitFinish : Nat → (Fin unitRows.headDim → ℚ) → Row ℚ := fun _ cell _ => cell ⟨0, Nat.one_pos⟩

/-- A layer with this compressor. -/
def unitLayer : Layer Unit ℚ where
  compressRatio := 4
  hasCompressor := true
  hasIndexer := false
  indexer_compressor := nofun
  kvRow := fun _ _ _ => 0
  compressor := unitRows.device unitFinish
  indexer := unitRows.device unitFinish
  indexScore := fun _ _ _ => 0
  block := fun x _ _ => x

/-- The layer after four tokens. -/
def unitCaches : LayerCache ℚ :=
  decodeCaches ⟨8, 8, 1, by decide, by decide⟩ unitRows.expo unitLayer
    (LayerState.reset ⟨⟨fun _ _ => 0, .reset, fun _ _ => 0, .reset⟩, fun _ => 0, fun _ => false,
      false⟩).cache (fun _ => ()) 4

/-- After a complete group the engine has cleared a row that Python still has. -/
theorem streaming_cleared :
    ∃ s, unitRows.calls (.fresh unitRows fun _ _ => 0) 0 ((List.range 4).map fun _ => [()]) =
        some s ∧ unitCaches.compressor.kv 4 ≠ s.kvState 4 := by
  refine ⟨_, unitRows.calls_oneToken (fun _ _ => 0) (fun _ => ()) 4, fun e => ?_⟩
  have cleared : unitCaches.compressor.kv 4 0 = 0 := by decide +kernel
  have kept : (unitRows.oneToken (fun _ _ => 0) (fun _ => ()) 4).kvState 4 0 = 1 := by
    decide +kernel
  rw [e, kept] at cleared
  exact absurd cleared (by decide +kernel)

/-- The layer's compressor after a group: where Python's is. -/
theorem streaming_agrees_unit :
    ∃ s, unitRows.calls (.fresh unitRows fun _ _ => 0) 0 ((List.range 4).map fun _ => [()]) =
        some s ∧
      unitRows.Streams unitFinish (fun _ => ()) 4 s unitCaches.compressor
        (fun g => unitCaches.kv (8 + g))
        (fun g => 8 + g <
          EngineConfig.capacity ⟨8, 8, 1, by decide, by decide⟩ unitLayer.toLayerConfig) := by
  obtain ⟨s, run, _, layers, _⟩ :=
    streaming_agrees unitRows unitFinish (fun _ _ => 0) (fun _ => ()) 4
  exact ⟨s, run, (layers ⟨8, 8, 1, by decide, by decide⟩ unitLayer _).1
    ⟨by decide, by decide, rfl⟩ rfl rfl⟩

end PocketMoE.Engine
