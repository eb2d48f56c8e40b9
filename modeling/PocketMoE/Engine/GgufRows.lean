import PocketMoE.Engine.GgufPlan

/-!
# The cells that a GGUF layer reads

A decoded token in a layer of a planned generator (`gguf_layer_forward_attn_to_gate` in
`dsv4_engine.cpp`, lines 4385 to 4437 and 4517 to 4625), and the run over all positions. The layers
share nothing but the index buffer, which each of them overwrites before it reads it, so a layer is
modelled on its own; what reaches it, the row, the pooled chunk and the scores of the indexer, is
arbitrary at every position.

`Kept` says what a cache without the swap holds after some positions; a cache with the swap holds
the same by `Mirrors`. `rows_written` is the result: every row names written cells.
-/

namespace PocketMoE.Engine
open PocketMoE.Lib

/-- What reaches a layer at a position: the row of the key, the chunk that is pooled if the position
completes one, and the scores of the compressed cells. -/
structure GgufLayerInput (R α : Type) where
  row : R
  pooled : R
  scores : Nat → α

namespace GgufLayerConfig

variable {R α : Type} {cfg : GgufLayerConfig} {plain : Nat → R} {t : GgufToken R} {n : Nat}

/-! ## What a cache with all chunks holds -/

/-- The cells after a token: its chunk behind the window, its row in the ring. -/
def cellsAfter (cfg : GgufLayerConfig) (plain : Nat → R) (t : GgufToken R) : Nat → R :=
  let chunk := t.position / cfg.ratio
  let stored := if (t.position + 1) % cfg.ratio = 0 ∧ chunk < cfg.compressedCap then
    Function.update plain (cfg.window + chunk) t.pooled else plain
  Function.update stored (t.position % cfg.window) t.row

lemma dense_lt {position : Nat} (dense : ¬ cfg.sparse position) : position < cfg.window := by
  have := cfg.threshold_le
  unfold sparse at dense
  omega

lemma windowIndices_dense {position : Nat} (small : position < cfg.window) :
    cfg.windowIndices position = (List.range (position + 1)).map Int.ofNat := by
  unfold windowIndices
  rw [min_eq_left (by omega)]
  refine List.map_congr_left fun i member => ?_
  have := List.mem_range.mp member
  rw [show position + 1 - (position + 1) + i = i by omega, Nat.mod_eq_of_lt (by omega)]
  rfl

lemma step_withoutSwap : cfg.step (cfg.withoutSwap plain) t =
    .ok (cfg.withoutSwap (cfg.cellsAfter plain t), cfg.windowIndices t.position ++
      if cfg.sparse t.position then t.selected.map fun g => ((cfg.window + g : Nat) : Int)
      else []) := by
  have store : cfg.storeCell (cfg.withoutSwap plain) t = .ok (cfg.withoutSwap
      (if (t.position + 1) % cfg.ratio = 0 ∧ t.position / cfg.ratio < cfg.compressedCap then
        Function.update plain (cfg.window + t.position / cfg.ratio) t.pooled else plain)) := by
    have cap := cfg.compressedCap_pos
    have room : cfg.window + t.position / cfg.ratio < max 1 (cfg.window + max 1 cfg.compressedCap) ↔
        t.position / cfg.ratio < cfg.compressedCap := by
      generalize t.position / cfg.ratio = g
      omega
    unfold storeCell withoutSwap
    by_cases ends : (t.position + 1) % cfg.ratio = 0
    · by_cases inside : t.position / cfg.ratio < cfg.compressedCap
      · simp only [ends, inside, KvSwap.stageNewChunk, room.mpr inside, KvSwap.storeChunk, if_true,
          and_self, Option.map_none]
      · simp only [ends, inside, KvSwap.stageNewChunk, room, if_true, if_false, and_false]
    · simp only [ends, if_false, false_and]
  rw [step, store]
  simp only [cellsAfter]
  generalize (if (t.position + 1) % cfg.ratio = 0 ∧ t.position / cfg.ratio < cfg.compressedCap then
    Function.update plain (cfg.window + t.position / cfg.ratio) t.pooled else plain) = stored
  have room : ¬ max 1 (cfg.window + max 1 cfg.compressedCap) ≤ cfg.window := by omega
  unfold prepare withoutSwap
  by_cases sparse : cfg.sparse t.position
  · simp only [sparse, room, KvSwap.swapInSelected, if_true, if_false]
  · have small := cfg.dense_lt sparse
    have inside : t.position < max 1 (cfg.window + max 1 cfg.compressedCap) := by omega
    simp only [sparse, inside, if_true, if_false, windowIndices_dense small, List.append_nil,
      Nat.mod_eq_of_lt small]

/-- After the first `n` positions the ring holds the last rows, and complete groups their chunk. -/
structure Kept (cfg : GgufLayerConfig) (x : Nat → GgufLayerInput R α) (n : Nat) (plain : Nat → R) :
    Prop where
  ring : ∀ q < n, n ≤ q + cfg.window → plain (q % cfg.window) = (x q).row
  chunks : ∀ g < cfg.compressedCap, (g + 1) * cfg.ratio ≤ n →
    plain (cfg.window + g) = (x ((g + 1) * cfg.ratio - 1)).pooled

lemma mod_ne {q r window : Nat} (less : q < r) (near : r < q + window) :
    q % window ≠ r % window := by
  intro same
  have : (r - q) % window = 0 := Nat.sub_mod_eq_zero_of_mod_eq same.symm
  rw [Nat.mod_eq_of_lt (by omega)] at this
  omega

lemma ends_iff {g : Nat} (ratio_pos : 0 < cfg.ratio) :
    ((n + 1) % cfg.ratio = 0 ∧ n / cfg.ratio = g) ↔ (g + 1) * cfg.ratio = n + 1 := by
  constructor
  · rintro ⟨ends, rfl⟩
    have : (n + 1) / cfg.ratio = n / cfg.ratio + 1 := by
      rw [Nat.succ_div, if_pos (Nat.dvd_of_mod_eq_zero ends)]
    rw [← this]
    exact Nat.div_mul_cancel (Nat.dvd_of_mod_eq_zero ends)
  · intro total
    have last : n = g * cfg.ratio + (cfg.ratio - 1) := by
      rw [Nat.add_mul, Nat.one_mul] at total
      omega
    refine ⟨by rw [← total, Nat.mul_mod_left], ?_⟩
    rw [last, Nat.mul_comm, Nat.mul_add_div ratio_pos, Nat.div_eq_of_lt (by omega), Nat.add_zero]

lemma Kept.step {x : Nat → GgufLayerInput R α} (kept : cfg.Kept x n plain) (selected : List Nat) :
    cfg.Kept x (n + 1) (cfg.cellsAfter plain ⟨n, (x n).row, (x n).pooled, selected⟩) := by
  have small (q : Nat) := Nat.mod_lt q cfg.window_pos
  constructor
  · intro q le near
    simp only [cellsAfter]
    rcases Nat.lt_succ_iff_lt_or_eq.mp le with less | rfl
    · rw [Function.update_of_ne (mod_ne less (by omega))]
      split_ifs
      · rw [Function.update_of_ne (Nat.ne_of_lt ((small q).trans_le (Nat.le_add_right ..)))]
        exact kept.ring q less (by omega)
      · exact kept.ring q less (by omega)
    · exact Function.update_self ..
  · intro g inside complete
    have behind : cfg.window + g ≠ n % cfg.window := by
      have := small n
      omega
    simp only [cellsAfter]
    rw [Function.update_of_ne behind]
    have last_iff := ends_iff (n := n) (g := g) cfg.ratio_pos
    by_cases last : (g + 1) * cfg.ratio = n + 1
    · obtain ⟨ends, rfl⟩ := last_iff.mpr last
      rw [if_pos ⟨ends, inside⟩, last]
      exact Function.update_self ..
    · have old := kept.chunks g inside (by omega)
      split_ifs with stored
      · have other : g ≠ n / cfg.ratio := fun same => last (last_iff.mp ⟨stored.1, same.symm⟩)
        rw [Function.update_of_ne (by omega)]
        exact old
      · exact old

end GgufLayerConfig

namespace GgufPlan

variable {R α : Type} (p : GgufPlan) (l : GgufLayerFile)

/-! ## A layer -/

lemma capPos {l : GgufLayerFile} (present : GgufStart.compressorPresent l = true) :
    0 < p.start.layerCompressedCap l := by
  have ratio : 0 < l.compressRatio := by
    simp only [GgufStart.compressorPresent, Bool.and_eq_true, decide_eq_true_eq] at present
    exact present.1
  unfold GgufStart.layerCompressedCap
  rw [if_pos present]
  exact Nat.div_pos (by omega) ratio

/-- The layer's configuration. Without the swap the slots are not used. -/
def layerConfig (present : GgufStart.compressorPresent l = true) : GgufLayerConfig where
  window := p.start.sparseWindow.toNat
  ratio := l.compressRatio
  threshold := p.start.sparseAttnThreshold.toNat
  compressedCap := p.start.layerCompressedCap l
  gpuChunks := if 0 < p.start.layerKvSwapGpuChunks l then p.start.layerKvSwapGpuChunks l
    else p.start.layerCompressedCap l
  kvDim := p.start.kvDim
  asyncH2d := decide (p.start.kvSwapSync = 0)
  window_pos := by
    have := p.window_pos
    omega
  ratio_pos := by
    simp only [GgufStart.compressorPresent, Bool.and_eq_true, decide_eq_true_eq] at present
    exact present.1
  threshold_le := by
    have := p.threshold_range
    omega
  compressedCap_pos := p.capPos present
  gpuChunks_pos := by
    have := p.capPos present
    split_ifs <;> assumption
  kvDim_pos := p.start.kvDim_pos

/-- The cleared cache of a layer. -/
def emptyLayer (zero : R) (host : Nat → R) : GgufLayer R :=
  if present : GgufStart.compressorPresent l then
    if 0 < p.start.layerKvSwapGpuChunks l then (p.layerConfig l present).swapped zero host
    else (p.layerConfig l present).resident zero
  else ⟨fun _ => zero, p.start.layerCacheCapacity l, none⟩

/-- The chunks that the attention of a position reads: those of the indexer, or all. -/
def selectChunks [LinearOrder α] (capacity position : Nat) (scores : Nat → α) :
    Except String (List Nat) :=
  let compressedReady := (position + 1) / l.compressRatio
  let compressedCap := if 0 < p.start.layerCompressedCap l then p.start.layerCompressedCap l
    else capacity - p.start.sparseWindow.toNat
  if p.start.indexerPresent l ∧ 0 < compressedReady ∧ 0 < p.start.layerIndexTopk l then
    let available := min compressedReady compressedCap
    let keep := min available (p.start.layerIndexTopk l)
    .ok ((TopK.repeatedMax α).select ((List.range available).map scores) keep)
  else if 0 < p.start.layerKvSwapGpuChunks l then
    if 0 < compressedReady then .error "GGUF KV swap requires sparse indexer selected chunks"
    else .ok []
  else .ok (List.range (min compressedReady compressedCap))

/-- A decoded token in a layer: its cache, and the slots that the attention reads. A layer without a
compressor attends to all positions. -/
def layerStep [LinearOrder α] (s : GgufLayer R) (position : Nat) (x : GgufLayerInput R α) :
    Except String (GgufLayer R × List Int) :=
  if present : GgufStart.compressorPresent l then
    let cfg := p.layerConfig l present
    let selected := if cfg.sparse position then p.selectChunks l s.capacity position x.scores
      else .ok []
    match selected with
    | .error e => .error e
    | .ok selected => cfg.step s ⟨position, x.row, x.pooled, selected⟩
  else if position < s.capacity then
    .ok ({ s with kv := Function.update s.kv position x.row },
      (List.range (position + 1)).map Int.ofNat)
  else .error "position out of KV cache capacity"

/-- The first positions in order: the cache, and for each position the slots that were read and the
cells at that moment. -/
def decode [LinearOrder α] (zero : R) (host : Nat → R) (x : Nat → GgufLayerInput R α) :
    Nat → Except String (GgufLayer R × List (List Int × (Nat → R)))
  | 0 => .ok (p.emptyLayer l zero host, [])
  | position + 1 =>
    match decode zero host x position with
    | .error e => .error e
    | .ok (s, seen) =>
      match p.layerStep l s position (x position) with
      | .error e => .error e
      | .ok (s, indices) => .ok (s, seen ++ [(indices, s.kv)])

/-! ## What a row has to be -/

/-- The slot where the key of a position is written. -/
def writeSlot (position : Nat) : Nat :=
  if present : GgufStart.compressorPresent l then
    if (p.layerConfig l present).sparse position then position % p.start.sparseWindow.toNat
    else position
  else position

/-- How many positions a row starts with. -/
def windowLen (position : Nat) : Nat :=
  if GgufStart.compressorPresent l then min (position + 1) p.start.sparseWindow.toNat
  else position + 1

/-- The last positions up to this one that the attention sees. -/
def recent (position : Nat) : List Nat :=
  List.range' (position + 1 - p.windowLen l position) (p.windowLen l position)

/-- The row of a position reads written cells only: the last positions, where they were written, and
then complete chunks. -/
structure Written (x : Nat → GgufLayerInput R α) (position : Nat) (indices : List Int)
    (kv : Nat → R) (chunks slots : List Nat) : Prop where
  row : indices = ((p.recent l position).map (p.writeSlot l) ++
    slots.map (p.start.sparseWindow.toNat + ·)).map Int.ofNat
  keys : ∀ q ∈ p.recent l position, kv (p.writeSlot l q) = (x q).row
  cells : List.Forall₂ (fun g s => (g + 1) * l.compressRatio ≤ position + 1 ∧
    kv (p.start.sparseWindow.toNat + s) = (x ((g + 1) * l.compressRatio - 1)).pooled) chunks slots
  distinct : chunks.Nodup
  nodup : indices.Nodup
  inside : ∀ i ∈ indices, 0 ≤ i ∧ i < p.start.layerCacheCapacity l
  fits : GgufStart.compressorPresent l = true → indices.length ≤ p.start.maxKvIndexCount

variable {p l} {x : Nat → GgufLayerInput R α} {n : Nat}

/-! ## The row -/

lemma writeSlot_eq (present : GgufStart.compressorPresent l = true) (q : Nat) :
    p.writeSlot l q = q % (p.layerConfig l present).window := by
  unfold writeSlot
  rw [dif_pos present]
  split_ifs with sparse
  · rfl
  · exact (Nat.mod_eq_of_lt (GgufLayerConfig.dense_lt sparse)).symm

lemma windowIndices_eq (present : GgufStart.compressorPresent l = true) (position : Nat) :
    (p.layerConfig l present).windowIndices position =
    ((p.recent l position).map (p.writeSlot l)).map Int.ofNat := by
  have len : p.windowLen l position = min (position + 1) (p.layerConfig l present).window :=
    if_pos present
  simp only [GgufLayerConfig.windowIndices, recent, len, List.range'_eq_map_range, List.map_map]
  refine List.map_congr_left fun i _ => ?_
  simp only [Function.comp_apply, writeSlot_eq present]
  rfl

lemma mem_recent (present : GgufStart.compressorPresent l = true) {position q : Nat} :
    q ∈ p.recent l position ↔
    q < position + 1 ∧ position + 1 ≤ q + (p.layerConfig l present).window := by
  have len : p.windowLen l position = min (position + 1) (p.layerConfig l present).window :=
    if_pos present
  have pos := (p.layerConfig l present).window_pos
  rw [recent, List.mem_range'_1, len]
  omega

lemma nodup_slots (present : GgufStart.compressorPresent l = true) (position : Nat) :
    ((p.recent l position).map (p.writeSlot l)).Nodup := by
  refine List.Nodup.map_on (fun q hq r hr same => ?_) (List.nodup_range' 1)
  rw [mem_recent present] at hq hr
  rw [writeSlot_eq present, writeSlot_eq present] at same
  by_contra other
  rcases Nat.lt_or_gt_of_ne other with less | less
  · exact GgufLayerConfig.mod_ne less (by omega) same
  · exact GgufLayerConfig.mod_ne less (by omega) same.symm

lemma written_of (present : GgufStart.compressorPresent l = true) {position : Nat} {kv : Nat → R}
    {chunks slots : List Nat}
    (member : l ∈ p.start.layers)
    (keys : ∀ q, q < position + 1 → position + 1 ≤ q + (p.layerConfig l present).window →
      kv (q % (p.layerConfig l present).window) = (x q).row)
    (cells : List.Forall₂ (fun g s => (g + 1) * l.compressRatio ≤ position + 1 ∧
      kv (p.start.sparseWindow.toNat + s) = (x ((g + 1) * l.compressRatio - 1)).pooled)
        chunks slots)
    (distinct : chunks.Nodup) (nodup : slots.Nodup)
    (few : slots.length ≤ p.start.layerCompressedCap l)
    (inside : ∀ s ∈ slots, p.start.sparseWindow.toNat + s < p.start.layerCacheCapacity l)
    (fits : 0 < p.start.layerKvSwapGpuChunks l → slots.length ≤ p.start.layerKvSwapGpuChunks l) :
    p.Written l x position ((p.layerConfig l present).windowIndices position ++
      slots.map fun s => ((p.start.sparseWindow.toNat + s : Nat) : Int)) kv chunks slots := by
  have row : (p.layerConfig l present).windowIndices position ++
      (slots.map fun s => ((p.start.sparseWindow.toNat + s : Nat) : Int)) =
      ((p.recent l position).map (p.writeSlot l) ++
        slots.map (p.start.sparseWindow.toNat + ·)).map Int.ofNat := by
    rw [windowIndices_eq, List.map_append, List.map_map (l := slots)]
    rfl
  have below (q : Nat) : p.writeSlot l q < p.start.sparseWindow.toNat := by
    rw [writeSlot_eq present]
    exact Nat.mod_lt q (p.layerConfig l present).window_pos
  have room : p.start.sparseWindow.toNat < p.start.layerCacheCapacity l := by
    have cap := p.capPos present
    unfold GgufStart.layerCacheCapacity
    simp only [present, if_true]
    split_ifs <;> omega
  refine ⟨row, fun q hq => ?_, cells, distinct, ?_, fun i hi => ?_, fun _ => ?_⟩
  · rw [mem_recent present] at hq
    rw [writeSlot_eq present]
    exact keys q hq.1 hq.2
  · rw [row]
    refine (List.nodup_append'.mpr ⟨nodup_slots present position,
      nodup.map fun a b same => Nat.add_left_cancel same, ?_⟩).map
        fun a b same => Int.ofNat.inj same
    -- the ring lies before the chunks
    intro i hi hj
    obtain ⟨q, _, rfl⟩ := List.mem_map.mp hi
    obtain ⟨s, _, same⟩ := List.mem_map.mp hj
    have := below q
    omega
  · rw [row] at hi
    obtain ⟨slot, named, rfl⟩ := List.mem_map.mp hi
    have inside : slot < p.start.layerCacheCapacity l := by
      rcases List.mem_append.mp named with named | named
      · obtain ⟨q, _, rfl⟩ := List.mem_map.mp named
        exact (below q).trans room
      · obtain ⟨s, hs, rfl⟩ := List.mem_map.mp named
        exact inside s hs
    exact ⟨Int.natCast_nonneg slot, Int.ofNat_lt.mpr inside⟩
  · rw [List.length_append, List.length_map, GgufLayerConfig.length_windowIndices]
    exact fits_buffer member present (min_le_right ..) few fits

/-! ## The selection -/

/-- Chunks that a position may read: different complete ones, no more than there are slots. -/
structure Selectable (p : GgufPlan) (l : GgufLayerFile) (position : Nat) (selected : List Nat) :
    Prop where
  nodup : selected.Nodup
  few : selected.length ≤ p.start.layerCompressedCap l
  slots : 0 < p.start.layerKvSwapGpuChunks l → selected.length ≤ p.start.layerKvSwapGpuChunks l
  complete : ∀ g ∈ selected, g < p.start.layerCompressedCap l ∧
    (g + 1) * l.compressRatio ≤ position + 1

lemma Selectable.nil (position : Nat) : p.Selectable l position [] :=
  ⟨List.nodup_nil, Nat.zero_le _, fun _ => Nat.zero_le _, nofun⟩

lemma selectChunks_selectable [LinearOrder α] (present : GgufStart.compressorPresent l = true)
    (capacity position : Nat) (scores : Nat → α) :
    ∃ selected, p.selectChunks l capacity position scores = .ok selected ∧
      p.Selectable l position selected := by
  have complete {g : Nat}
      (less : g < min ((position + 1) / l.compressRatio) (p.start.layerCompressedCap l)) :
      g < p.start.layerCompressedCap l ∧ (g + 1) * l.compressRatio ≤ position + 1 := by
    have ready : g + 1 ≤ (position + 1) / l.compressRatio := by omega
    exact ⟨by omega, (Nat.mul_le_mul_right _ ready).trans (Nat.div_mul_le_self ..)⟩
  unfold selectChunks
  simp only [if_pos (p.capPos present)]
  split_ifs with indexed swaps ready
  · -- the indexer keeps some of the complete chunks
    have le : min (min ((position + 1) / l.compressRatio) (p.start.layerCompressedCap l))
        (p.start.layerIndexTopk l) ≤ ((List.range (min ((position + 1) / l.compressRatio)
          (p.start.layerCompressedCap l))).map scores).length := by
      rw [List.length_map, List.length_range]
      exact min_le_left ..
    refine ⟨_, rfl, (TopK.repeatedMax α).nodup_select le, ?_, fun swaps => ?_, fun g picked => ?_⟩
    · rw [(TopK.repeatedMax α).length_select le]
      omega
    · rw [(TopK.repeatedMax α).length_select le]
      exact (min_le_right ..).trans (topk_le_chunks swaps)
    · have := (TopK.repeatedMax α).lt_length le picked
      rw [List.length_map, List.length_range] at this
      exact complete this
  · -- a layer that swaps has an indexer with something to select
    exact absurd ⟨(swaps_of_pos swaps).2.2.1, ready, layerIndexTopk_pos swaps⟩ indexed
  · exact ⟨[], rfl, .nil position⟩
  · refine ⟨_, rfl, List.nodup_range, ?_, fun chunks => absurd chunks swaps, fun g member => ?_⟩
    · rw [List.length_range]
      exact min_le_right ..
    · exact complete (List.mem_range.mp member)

/-! ## A layer with a compressor -/

/-- The cache of such a layer after `n` positions: what a cache with all chunks holds, or, with the
swap, what mirrors it. -/
def Decoded (p : GgufPlan) (present : GgufStart.compressorPresent l = true)
    (x : Nat → GgufLayerInput R α) (n : Nat) (s : GgufLayer R) : Prop :=
  ∃ plain, (p.layerConfig l present).Kept x n plain ∧
    if 0 < p.start.layerKvSwapGpuChunks l then
      ∃ past st kv, past.map GgufToken.position = List.range n ∧
        s = (p.layerConfig l present).withSwap kv st ∧
        (p.layerConfig l present).Mirrors past st kv plain
    else s = (p.layerConfig l present).withoutSwap plain

lemma Decoded.start (present : GgufStart.compressorPresent l = true) (zero : R) (host : Nat → R) :
    p.Decoded present x 0 (p.emptyLayer l zero host) := by
  refine ⟨fun _ => zero, ⟨nofun, fun g _ complete => ?_⟩, ?_⟩
  · exact absurd complete (Nat.not_le.mpr
      (Nat.mul_pos (Nat.succ_pos g) (p.layerConfig l present).ratio_pos))
  · unfold emptyLayer
    rw [dif_pos present]
    split_ifs with swaps
    · obtain ⟨st, start, same⟩ := GgufLayerConfig.Mirrors.start (p.layerConfig l present) zero host
      exact ⟨[], st, _, rfl, start, same⟩
    · rfl

lemma Decoded.capacity {present : GgufStart.compressorPresent l = true} {s : GgufLayer R}
    (decoded : p.Decoded present x n s) : s.capacity = p.start.layerCacheCapacity l := by
  obtain ⟨plain, _, held⟩ := decoded
  unfold GgufStart.layerCacheCapacity
  simp only [present, if_true]
  split_ifs at held ⊢ with swaps
  · obtain ⟨past, st, kv, _, rfl, _⟩ := held
    simp [GgufLayerConfig.withSwap, layerConfig, swaps]
  · rw [held]
    rfl

lemma stored_of_complete (present : GgufStart.compressorPresent l = true)
    {past : List (GgufToken R)} (positions : past.map GgufToken.position = List.range n) {g : Nat}
    (cap : g < p.start.layerCompressedCap l) (complete : (g + 1) * l.compressRatio ≤ n) :
    (p.layerConfig l present).Stored past g := by
  have ratio_pos := (p.layerConfig l present).ratio_pos
  have some_ : 0 < (g + 1) * l.compressRatio := Nat.mul_pos (Nat.succ_pos g) ratio_pos
  have last : (g + 1) * l.compressRatio - 1 ∈ past.map GgufToken.position := by
    rw [positions, List.mem_range]
    omega
  obtain ⟨t, member, position⟩ := List.mem_map.mp last
  have ends := (GgufLayerConfig.ends_iff (n := t.position) (g := g) ratio_pos).mpr
    (show (g + 1) * l.compressRatio = t.position + 1 by omega)
  exact ⟨cap, t, member, ends⟩

lemma indices_dense {cfg : GgufLayerConfig} {s s' : GgufLayer R} {t : GgufToken R}
    {indices : List Int} (steps : cfg.step s t = .ok (s', indices)) (dense : ¬ cfg.sparse t.position) :
    indices = cfg.windowIndices t.position := by
  rw [GgufLayerConfig.windowIndices_dense (GgufLayerConfig.dense_lt dense)]
  unfold GgufLayerConfig.step GgufLayerConfig.prepare at steps
  cases store : cfg.storeCell s t with
  | error e => simp [store] at steps
  | ok s₁ =>
    simp only [store, if_neg dense] at steps
    split_ifs at steps with room
    exact (Prod.mk.inj (Except.ok.inj steps)).2.symm

variable {present : GgufStart.compressorPresent l = true} {s : GgufLayer R}

lemma step_resident (member : l ∈ p.start.layers) {plain : Nat → R} {selected : List Nat}
    (kept : (p.layerConfig l present).Kept x n plain) (selectable : p.Selectable l n selected)
    (dense : ¬ (p.layerConfig l present).sparse n → selected = [])
    (all : ¬ 0 < p.start.layerKvSwapGpuChunks l) :
    ∃ s' indices chunks slots, (p.layerConfig l present).step
        ((p.layerConfig l present).withoutSwap plain) ⟨n, (x n).row, (x n).pooled, selected⟩ =
          .ok (s', indices) ∧
      p.Decoded present x (n + 1) s' ∧ p.Written l x n indices s'.kv chunks slots := by
  have kept' := kept.step selected
  have row : (if (p.layerConfig l present).sparse n then
      selected.map fun g => (((p.layerConfig l present).window + g : Nat) : Int) else []) =
      selected.map fun g => ((p.start.sparseWindow.toNat + g : Nat) : Int) := by
    split_ifs with sparse
    · rfl
    · rw [dense sparse]
      rfl
  refine ⟨_, _, selected, selected, GgufLayerConfig.step_withoutSwap,
    ⟨_, kept', by rw [if_neg all]⟩, ?_⟩
  rw [row]
  refine written_of present member kept'.ring (List.forall₂_same.mpr fun g picked => ?_)
    selectable.nodup selectable.nodup selectable.few (fun g picked => ?_)
    fun chunks => absurd chunks all
  · obtain ⟨cap, complete⟩ := selectable.complete g picked
    exact ⟨complete, kept'.chunks g cap complete⟩
  · have cap := (selectable.complete g picked).1
    unfold GgufStart.layerCacheCapacity
    simp only [present, if_true, if_neg all]
    omega

lemma step_swapped (member : l ∈ p.start.layers) {plain kv : Nat → R} {past : List (GgufToken R)}
    {st : KvSwap R} {selected : List Nat} (kept : (p.layerConfig l present).Kept x n plain)
    (selectable : p.Selectable l n selected) (swaps : 0 < p.start.layerKvSwapGpuChunks l)
    (positions : past.map GgufToken.position = List.range n)
    (same : (p.layerConfig l present).Mirrors past st kv plain) :
    ∃ s' indices chunks slots, (p.layerConfig l present).step
        ((p.layerConfig l present).withSwap kv st) ⟨n, (x n).row, (x n).pooled, selected⟩ =
          .ok (s', indices) ∧
      p.Decoded present x (n + 1) s' ∧ p.Written l x n indices s'.kv chunks slots := by
  have kept' := kept.step selected
  generalize token : (⟨n, (x n).row, (x n).pooled, selected⟩ : GgufToken R) = t at kept' ⊢
  have position : t.position = n := token ▸ rfl
  have picks : t.selected = selected := token ▸ rfl
  have positions' : (past ++ [t]).map GgufToken.position = List.range (n + 1) := by
    rw [List.map_append, positions, List.range_succ, List.map_singleton, position]
  have gpuChunks : (p.layerConfig l present).gpuChunks = p.start.layerKvSwapGpuChunks l :=
    if_pos swaps
  have stored : ∀ g ∈ selected, (p.layerConfig l present).Stored (past ++ [t]) g := fun g picked => by
    obtain ⟨cap, complete⟩ := selectable.complete g picked
    exact stored_of_complete present positions' cap complete
  have selects : (p.layerConfig l present).Selects past t := fun _ => by
    rw [picks, gpuChunks]
    exact ⟨selectable.nodup, le_min (selectable.slots swaps) selectable.few, stored⟩
  obtain ⟨st', kv', plain', indices, indices', steps, steps', same', _, resident⟩ :=
    same.step selects
  -- a cache with all chunks goes on as it does without the swap
  obtain rfl : (p.layerConfig l present).cellsAfter plain t = plain' := by
    rw [GgufLayerConfig.step_withoutSwap] at steps'
    exact congrArg (fun r => r.1.kv) (Except.ok.inj steps')
  have keys : ∀ q, q < n + 1 → n + 1 ≤ q + (p.layerConfig l present).window →
      kv' (q % (p.layerConfig l present).window) = (x q).row := fun q le near =>
    (same'.ring _ (Nat.mod_lt q (p.layerConfig l present).window_pos)).trans (kept'.ring q le near)
  have decoded : p.Decoded present x (n + 1) ((p.layerConfig l present).withSwap kv' st') :=
    ⟨_, kept', by rw [if_pos swaps]; exact ⟨past ++ [t], st', kv', positions', rfl, same'⟩⟩
  by_cases sparse : (p.layerConfig l present).sparse n
  · obtain ⟨slots, rfl, held⟩ := resident (position.symm ▸ sparse)
    rw [picks] at held
    have count : selected.length = slots.length := held.chunk.length_eq
    refine ⟨_, _, selected, slots, steps, decoded, ?_⟩
    rw [GgufLayerConfig.chunkIndices, position]
    have chosen := (List.forall₂_and_left _ _).mpr ⟨fun g picked => picked, held.chunk⟩
    refine written_of present member keys (chosen.imp fun g slot found => ?_)
      selectable.nodup held.distinct (count ▸ selectable.few) (fun slot named => ?_)
      (fun _ => count ▸ selectable.slots swaps)
    · obtain ⟨picked, _, here⟩ := found
      obtain ⟨cap, complete⟩ := selectable.complete g picked
      have ready := (same'.stored g).mpr (stored g picked)
      rw [same'.window] at here
      exact ⟨complete, here.trans ((same'.host g ready).trans (kept'.chunks g cap complete))⟩
    · have := held.inside slot named
      rw [same'.gpuChunks, gpuChunks] at this
      unfold GgufStart.layerCacheCapacity
      simp only [present, if_true, if_pos swaps]
      omega
  · have row := indices_dense steps (position.symm ▸ sparse)
    refine ⟨_, _, [], [], steps, decoded, ?_⟩
    rw [row, position]
    have window := written_of present member keys .nil List.nodup_nil List.nodup_nil
      (Nat.zero_le _) (List.forall_mem_nil _) fun _ => Nat.zero_le _
    rwa [List.map_nil, List.append_nil] at window

lemma Decoded.step [LinearOrder α] (decoded : p.Decoded present x n s)
    (member : l ∈ p.start.layers) :
    ∃ s' indices chunks slots, p.layerStep l s n (x n) = .ok (s', indices) ∧
      p.Decoded present x (n + 1) s' ∧ p.Written l x n indices s'.kv chunks slots := by
  obtain ⟨selected, picks, selectable, dense⟩ : ∃ selected,
      (if (p.layerConfig l present).sparse n then p.selectChunks l s.capacity n (x n).scores
        else .ok []) = .ok selected ∧ p.Selectable l n selected ∧
      (¬ (p.layerConfig l present).sparse n → selected = []) := by
    split_ifs with sparse
    · obtain ⟨selected, picks, selectable⟩ :=
        selectChunks_selectable present s.capacity n (x n).scores
      exact ⟨selected, picks, selectable, fun dense => absurd sparse dense⟩
    · exact ⟨[], rfl, .nil n, fun _ => rfl⟩
  have step : p.layerStep l s n (x n) = (p.layerConfig l present).step s
      ⟨n, (x n).row, (x n).pooled, selected⟩ := by
    unfold layerStep
    simp only [dif_pos present, picks]
  rw [step]
  obtain ⟨plain, kept, held⟩ := decoded
  split_ifs at held with swaps
  · obtain ⟨past, st, kv, positions, rfl, same⟩ := held
    exact step_swapped member kept selectable swaps positions same
  · subst held
    exact step_resident member kept selectable dense swaps

/-! ## A layer without a compressor -/

/-- The cache of such a layer after `n` positions. -/
structure Whole (p : GgufPlan) (l : GgufLayerFile) (x : Nat → GgufLayerInput R α) (n : Nat)
    (s : GgufLayer R) : Prop where
  capacity : s.capacity = p.start.layerCacheCapacity l
  rows : ∀ q < n, s.kv q = (x q).row

lemma Whole.step [LinearOrder α] (whole : p.Whole l x n s)
    (absent : ¬ GgufStart.compressorPresent l = true) (less : n < p.start.totalPositions) :
    ∃ s' indices, p.layerStep l s n (x n) = .ok (s', indices) ∧ p.Whole l x (n + 1) s' ∧
      p.Written l x n indices s'.kv [] [] := by
  have capacity : p.start.layerCacheCapacity l = max 1 p.start.totalPositions := if_neg absent
  have room : n < s.capacity := by
    rw [whole.capacity, capacity]
    omega
  have slot (q : Nat) : p.writeSlot l q = q := dif_neg absent
  have recent : p.recent l n = List.range (n + 1) := by
    have len : p.windowLen l n = n + 1 := if_neg absent
    rw [GgufPlan.recent, len, Nat.sub_self, List.range_eq_range']
  have rows : ∀ q < n + 1, Function.update s.kv n (x n).row q = (x q).row := by
    intro q le
    rcases Nat.lt_succ_iff_lt_or_eq.mp le with less | rfl
    · rw [Function.update_of_ne (by omega)]
      exact whole.rows q less
    · exact Function.update_self ..
  refine ⟨⟨Function.update s.kv n (x n).row, s.capacity, s.swap⟩, _,
    (dif_neg absent).trans (if_pos room), ⟨whole.capacity, rows⟩, ?_, ?_, .nil, List.nodup_nil, ?_,
    ?_, fun present => absurd present absent⟩
  · rw [recent, List.map_nil, List.append_nil, List.map_congr_left (fun q _ => slot q),
      List.map_id']
  · intro q hq
    rw [recent, List.mem_range] at hq
    rw [slot]
    exact rows q hq
  · exact List.nodup_range.map fun a b same => Int.ofNat.inj same
  · intro i hi
    obtain ⟨q, hq, rfl⟩ := List.mem_map.mp hi
    rw [List.mem_range] at hq
    have inside : q < p.start.layerCacheCapacity l := by
      rw [capacity]
      omega
    exact ⟨Int.natCast_nonneg q, Int.ofNat_lt.mpr inside⟩

/-! ## A run -/

/-- What the cache of a layer holds after `n` positions. -/
def After (p : GgufPlan) (l : GgufLayerFile) (x : Nat → GgufLayerInput R α) (n : Nat)
    (s : GgufLayer R) : Prop :=
  if present : GgufStart.compressorPresent l = true then p.Decoded present x n s
  else p.Whole l x n s

lemma After.start (zero : R) (host : Nat → R) : p.After l x 0 (p.emptyLayer l zero host) := by
  unfold After
  split_ifs with present
  · exact .start present zero host
  · unfold emptyLayer
    rw [dif_neg present]
    exact ⟨rfl, nofun⟩

lemma After.step [LinearOrder α] (after : p.After l x n s) (member : l ∈ p.start.layers)
    (less : n < p.start.totalPositions) :
    ∃ s' indices chunks slots, p.layerStep l s n (x n) = .ok (s', indices) ∧
      p.After l x (n + 1) s' ∧ p.Written l x n indices s'.kv chunks slots := by
  unfold After at after ⊢
  by_cases present : GgufStart.compressorPresent l = true
  · simp only [dif_pos present] at after ⊢
    exact after.step member
  · simp only [dif_neg present] at after ⊢
    obtain ⟨s', indices, steps, after, written⟩ := after.step present less
    exact ⟨s', indices, [], [], steps, after, written⟩

lemma decode_written [LinearOrder α] (member : l ∈ p.start.layers) (zero : R) (host : Nat → R)
    (le : n ≤ p.start.totalPositions) :
    ∃ s seen, p.decode l zero host x n = .ok (s, seen) ∧ p.After l x n s ∧ seen.length = n ∧
      ∀ position indices kv, seen[position]? = some (indices, kv) →
        ∃ chunks slots, p.Written l x position indices kv chunks slots := by
  induction n with
  | zero => exact ⟨_, [], rfl, .start zero host, rfl, nofun⟩
  | succ n ih =>
    obtain ⟨s, seen, runs, after, count, rows⟩ := ih (by omega)
    obtain ⟨s', indices, chunks, slots, steps, after', written⟩ := after.step member (by omega)
    refine ⟨s', seen ++ [(indices, s'.kv)], by simp only [decode, runs, steps], after',
      by rw [List.length_append, count, List.length_singleton], fun position indices' kv here => ?_⟩
    rw [List.getElem?_append] at here
    split_ifs at here with before
    · exact rows position indices' kv here
    · obtain ⟨last, same⟩ := List.getElem?_eq_some_iff.mp here
      obtain rfl : position = n := by
        rw [List.length_singleton] at last
        omega
      simp only [List.getElem_singleton] at same
      obtain ⟨rfl, rfl⟩ := Prod.mk.inj same
      exact ⟨chunks, slots, written⟩

/-- In a generator that was started, every layer decodes all positions in order, and the row of each
position names the slots of the last positions, where their keys were written, and then different
complete chunks; it lies inside the layer's cache and fits the index buffer. -/
theorem rows_written [LinearOrder α] (p : GgufPlan) (L : Fin p.start.layers.length) (zero : R)
    (host : Nat → R) (x : Nat → GgufLayerInput R α) :
    let l := p.start.layers.get L
    ∃ s seen, p.decode l zero host x p.start.totalPositions = .ok (s, seen) ∧
      seen.length = p.start.totalPositions ∧
      ∀ position indices kv, seen[position]? = some (indices, kv) →
        ∃ chunks slots, p.Written l x position indices kv chunks slots := by
  intro l
  obtain ⟨s, seen, runs, _, count, rows⟩ :=
    decode_written (x := x) (List.get_mem p.start.layers L) zero host le_rfl
  exact ⟨s, seen, runs, count, rows⟩

end GgufPlan

end PocketMoE.Engine
