import Mathlib.Algebra.GroupWithZero.Nat
import Mathlib.Data.List.Basic
import Mathlib.Data.List.Range
import PocketMoE.Lib.Pipeline
import PocketMoE.Lib.Ring
import PocketMoE.Lib.Tensor

/-!
# Chunked prefill of the GGUF engine

`run_gguf_generate` (`dsv4_engine.cpp`) takes a prompt through the layers chunk by chunk
(`run_chunked_prefill`), or position by position with the decode step (`run_step`). The chunked path
runs only when decode attends densely, to all positions before. It copies the rows of a chunk to the
cache and attends with the rows of an index table that ends at a window, unless indexed attention is
off or the table would be too large, and may feed the last tokens once more with the decode step.

`chunkedPrefill_iff`: the two agree exactly when the window and the tokens that are fed once more
cover the prompt.
-/

namespace PocketMoE.Gguf
open PocketMoE.Lib PocketMoE.Tensor

variable {T X R : Type*}

/-- A layer: the row that it caches for an input, and all that it does with the rows attended to. -/
structure Layer (X R : Type*) where
  kvRow : X → Nat → R
  block : X → Nat → List R → X

/-- The cache of a layer, and the positions that each position has attended to when it was computed
last. -/
structure KvCache (R : Type*) where
  kv : Nat → R
  attended : Nat → List Nat

/-- The layers and their caches. -/
abbrev Session (X R : Type*) := List (Layer X R × KvCache R)

/-- The engine: the capacity of the caches, the embedding, and the head with the argmax. -/
structure Engine (T X R : Type*) where
  cacheCapacity : Nat
  embed : T → X
  argmax : X → T

/-- The settings of chunked prefill, `DSV4_GGUF_PREFILL_*`: `CHUNK_TOKENS`, `ATTN_WINDOW` (by default
the window of the model), `INDEXED_ATTN`, `ATTN_MAX_INDEX_ELEMS`, `INDEXED_ATTN_MAX_TOPK` and
`REFINE_LAST_TOKENS`. -/
structure PrefillOptions where
  chunkTokens : Int
  attnWindow : Int
  indexedAttn : Bool
  attnMaxIndexElems : Int
  indexedAttnMaxTopk : Int
  refineLastTokens : Int

namespace PrefillOptions

variable (opts : PrefillOptions) (promptTokens : Nat)

/-- `chunk_tokens`. -/
def chunkSize : Nat :=
  if opts.chunkTokens ≤ 0 ∨ (promptTokens : Int) < opts.chunkTokens then promptTokens
  else opts.chunkTokens.toNat

/-- `prefill_attn_window`. -/
def window : Nat :=
  if opts.attnWindow ≤ 0 ∨ (promptTokens : Int) < opts.attnWindow then promptTokens
  else opts.attnWindow.toNat

/-- `prefill_attn_topk`. -/
def topk : Nat := min promptTokens (opts.window promptTokens)

/-- `use_prefill_indexed_attn`. -/
def useIndexedAttn : Bool :=
  let elems := promptTokens * opts.topk promptTokens
  opts.indexedAttn && decide (0 < opts.topk promptTokens) && decide (0 < elems) &&
    (decide (opts.indexedAttnMaxTopk ≤ 0) ||
      decide ((opts.topk promptTokens : Int) ≤ opts.indexedAttnMaxTopk)) &&
    (decide (opts.attnMaxIndexElems ≤ 0) || decide ((elems : Int) ≤ opts.attnMaxIndexElems))

/-- `refine_last_tokens`. -/
def refine : Nat := min opts.refineLastTokens.toNat promptTokens

/-- How many positions, itself included, a position of the prompt attends to at most. -/
def reach : Nat := if opts.useIndexedAttn promptTokens then opts.window promptTokens else promptTokens

end PrefillOptions

/-- A row of `build_prefill_window_indices_kernel`. -/
def windowIndices (windowSize topk token : Nat) : List Int :=
  let start := token + 1 - windowSize
  let count := token - start + 1
  (List.range topk).map fun i => if i < count then ((start + i : Nat) : Int) else -1

/-- The slots that the indexed attention kernels read: the entries of the index row that are below
the end of the chunk. -/
def indexedSlots (indices : List Int) (kvLen : Nat) : List Nat :=
  indices.filterMap fun i : Int => if 0 ≤ i ∧ i < kvLen then some i.toNat else none

/-- The slots that `prefill_causal_attention_chunk_kernel` reads; the window is the capacity of the
cache. -/
def causalSlots (windowSize kvLen token : Nat) : List Nat :=
  let start := token + 1 - windowSize
  let stop := min token (kvLen - 1)
  (List.range' start (stop + 1 - start)).map fun t => t % windowSize

section Layers

variable (opts : PrefillOptions) (capacity : Nat)

/-- The slots that a position of the prompt attends to, in a chunk that ends at `kvLen`. -/
def prefillSlots (promptTokens kvLen token : Nat) : List Nat :=
  if opts.useIndexedAttn promptTokens then
    indexedSlots (windowIndices (opts.window promptTokens) (opts.topk promptTokens) token) kvLen
  else causalSlots capacity kvLen token

/-- `run_gguf_layer_step` with the dense cached attention, which throws beyond the capacity. -/
def layerStep (l : Layer X R) (s : KvCache R) (position : Nat) (x : X) : KvCache R × X :=
  let kv := Function.update s.kv position (l.kvRow x position)
  let slots := List.range (position + 1)
  ({ kv := kv, attended := Function.update s.attended position slots },
    l.block x position (slots.map kv))

/-- A chunk of the prompt in a layer. No two rows of a chunk share a slot, since the prompt fits the
cache, so the order of the copies does not matter. -/
def prefillChunk (promptTokens : Nat) (l : Layer X R) (s : KvCache R) (start : Nat) (xs : List X) :
    KvCache R × List X :=
  let stop := start + xs.length
  let kv := Ring.writeRows capacity s.kv start (xs.mapIdx fun i x => l.kvRow x (start + i))
  let slots := prefillSlots opts capacity promptTokens stop
  ({ kv := kv
     attended := fun position =>
       if start ≤ position ∧ position < stop then slots position else s.attended position },
    xs.mapIdx fun i x => l.block x (start + i) ((slots (start + i)).map kv))

/-- The first chunks of the prompt in a layer. -/
def prefillChunks (l : Layer X R) (s : KvCache R) (xs : List X) (size : Nat) :
    Nat → KvCache R × List X
  | 0 => (s, [])
  | b + 1 =>
    let (s, ys) := prefillChunks l s xs size b
    let (s, out) := prefillChunk opts capacity xs.length l s (b * size)
      (slice xs (b * size) ((b + 1) * size))
    (s, ys ++ out)

/-- The chunk loop of a layer. -/
def prefillLayer (l : Layer X R) (s : KvCache R) (xs : List X) : KvCache R × List X :=
  let size := opts.chunkSize xs.length
  prefillChunks opts capacity l s xs size ((xs.length + size - 1) / size)

/-- The layer loop. -/
def prefillLayers : Session X R → List X → Session X R × List X
  | [], xs => ([], xs)
  | (l, s) :: rest, xs =>
    let (s, ys) := prefillLayer opts capacity l s xs
    let (rest, zs) := prefillLayers rest ys
    ((l, s) :: rest, zs)

end Layers

namespace Engine

variable (e : Engine T X R)

/-- `run_step`. -/
def runStep (session : Session X R) (token : T) (position : Nat) : Session X R × T :=
  let (session, y) := feed layerStep session position (e.embed token)
  (session, e.argmax y)

/-- Decode steps of given tokens at consecutive positions, with what each predicts. -/
def runSteps (session : Session X R) (position : Nat) : List T → Session X R × List T
  | [] => (session, [])
  | token :: rest =>
    let (session, top) := e.runStep session token position
    let (session, tops) := runSteps session (position + 1) rest
    (session, top :: tops)

/-- The prompt, position by position. -/
def runPrompt (session : Session X R) (seedTokens : List T) : Session X R × Option T :=
  let (session, tops) := e.runSteps session 0 seedTokens
  (session, tops.getLast?)

/-- `run_chunked_prefill`. -/
def runChunkedPrefill (opts : PrefillOptions) (session : Session X R) (seedTokens : List T) :
    Session X R × Option T :=
  let (session, ys) := prefillLayers opts e.cacheCapacity session (seedTokens.map e.embed)
  let refineStart := seedTokens.length - opts.refine seedTokens.length
  let (session, refined) := e.runSteps session refineStart (seedTokens.drop refineStart)
  (session, refined.getLast?.or (ys.getLast?.map e.argmax))

/-- The tokens generated after the first one. -/
def generate (session : Session X R) (lastArgmax : T) (position : Nat) : Nat → List T
  | 0 => []
  | m + 1 =>
    let (session, top) := e.runStep session lastArgmax position
    top :: generate session top (position + 1) m

/-- Chunked prefill leaves the caches of the step-by-step path, has attended to the same positions,
and the first token and all later ones are the same. -/
structure ChunkedRefines (opts : PrefillOptions) (session : Session X R) (seedTokens : List T) :
    Prop where
  kv : (e.runChunkedPrefill opts session seedTokens).1.map (fun slot => slot.2.kv) =
    (e.runPrompt session seedTokens).1.map fun slot => slot.2.kv
  attended : (e.runChunkedPrefill opts session seedTokens).1.map (fun slot => slot.2.attended) =
    (e.runPrompt session seedTokens).1.map fun slot => slot.2.attended
  first : (e.runChunkedPrefill opts session seedTokens).2 = (e.runPrompt session seedTokens).2
  later : ∀ first ∈ (e.runPrompt session seedTokens).2, ∀ m,
    seedTokens.length + m ≤ e.cacheCapacity →
      e.generate (e.runChunkedPrefill opts session seedTokens).1 first seedTokens.length m =
        e.generate (e.runPrompt session seedTokens).1 first seedTokens.length m

end Engine

/-! ## What each position reads -/

/-- The positions that position `j` attends to with a window of `w`. -/
def reached (w j : Nat) : List Nat := List.range' (j + 1 - w) (min (j + 1) w)

/-- The rows of the cache when the rows of a prompt have been written. -/
def rowAt (l : Layer X R) (kv : Nat → R) (xs : List X) (j : Nat) : R :=
  match xs[j]? with
  | some x => l.kvRow x j
  | none => kv j

/-- A prompt in a layer, when each position attends to the last `w` positions. -/
def windowed (w : Nat) (l : Layer X R) (s : KvCache R) (xs : List X) : KvCache R × List X :=
  ({ kv := rowAt l s.kv xs
     attended := fun j => if j < xs.length then reached w j else s.attended j },
    xs.mapIdx fun j x => l.block x j ((reached w j).map (rowAt l s.kv xs)))

section Windows

variable {opts : PrefillOptions} {capacity w n : Nat} {l : Layer X R} {s s' : KvCache R}
  {xs front part : List X} {x : X}

lemma reached_full {j : Nat} (lt : j < w) : reached w j = List.range (j + 1) := by
  unfold reached
  rw [Nat.sub_eq_zero_of_le lt, Nat.min_eq_left lt, List.range_eq_range']

lemma lt_of_mem_reached {j t : Nat} (member : t ∈ reached w j) : t < j + 1 := by
  unfold reached at member
  have := List.mem_range'_1.mp member
  omega

lemma reached_ne {j : Nat} (le : w ≤ j) : reached w j ≠ List.range (j + 1) := by
  intro eq
  have first : 0 ∈ reached w j := eq ▸ List.mem_range.mpr (Nat.succ_pos j)
  unfold reached at first
  have := List.mem_range'_1.mp first
  omega

lemma indexedSlots_window {j kvLen : Nat} (le : w ≤ n) (lt : j < kvLen) :
    indexedSlots (windowIndices w (min n w) j) kvLen = reached w j := by
  by_cases none : w = 0
  · subst none
    rw [Nat.min_zero]
    rfl
  · have count : j - (j + 1 - w) + 1 = min (j + 1) w := by omega
    have few : min (j + 1) w ≤ w := Nat.min_le_right _ _
    unfold indexedSlots windowIndices reached
    rw [Nat.min_eq_right le, List.filterMap_map, List.range'_eq_map_range, count]
    refine filterMap_range few _ (fun i lt => ?_) fun i ge => ?_
    · have inside : 0 ≤ ((j + 1 - w + i : Nat) : Int) ∧ ((j + 1 - w + i : Nat) : Int) < kvLen := by
        omega
      simp only [Function.comp_apply, if_pos lt, if_pos inside, Int.toNat_natCast]
    · simp only [Function.comp_apply, if_neg (Nat.not_lt.mpr ge)]
      rfl

lemma causalSlots_all {j kvLen : Nat} (lt : j < kvLen) (fits : kvLen ≤ capacity) :
    causalSlots capacity kvLen j = List.range (j + 1) := by
  unfold causalSlots
  have start : j + 1 - capacity = 0 := by omega
  have stop : min j (kvLen - 1) = j := by omega
  simp only [start, stop, Nat.sub_zero]
  rw [← List.range_eq_range']
  refine (List.map_congr_left fun t member => ?_).trans (List.map_id _)
  have := List.mem_range.mp member
  exact Nat.mod_eq_of_lt (by omega)

lemma PrefillOptions.window_le : opts.window n ≤ n := by
  unfold window
  split_ifs with whole
  · exact Nat.le_refl n
  · omega

lemma prefillSlots_eq {j kvLen : Nat} (lt : j < kvLen) (le : kvLen ≤ n) (fits : n ≤ capacity) :
    prefillSlots opts capacity n kvLen j = reached (opts.reach n) j := by
  unfold prefillSlots PrefillOptions.reach
  split_ifs
  · exact indexedSlots_window PrefillOptions.window_le lt
  · rw [causalSlots_all lt (le.trans fits), reached_full (lt.trans_le le)]

lemma rowAt_append_left {kv : Nat → R} {j : Nat} (lt : j < front.length) :
    rowAt l kv (front ++ part) j = rowAt l kv front j := by
  unfold rowAt
  rw [List.getElem?_append_left lt]

lemma rowAt_of_le {kv : Nat → R} {j : Nat} (le : xs.length ≤ j) : rowAt l kv xs j = kv j := by
  unfold rowAt
  rw [List.getElem?_eq_none le]

lemma windowed_append (front part : List X) :
    (windowed w l s (front ++ part)).2 = (windowed w l s front).2 ++
      part.mapIdx fun i x => l.block x (front.length + i)
        ((reached w (front.length + i)).map (rowAt l s.kv (front ++ part))) := by
  unfold windowed
  dsimp only
  rw [List.mapIdx_append]
  refine congrArg₂ _ (List.mapIdx_eq_mapIdx_iff.mpr fun j lt => ?_)
    (List.mapIdx_eq_mapIdx_iff.mpr fun i _ => ?_)
  · refine congrArg _ (List.map_congr_left fun t member => ?_)
    exact rowAt_append_left (Nat.lt_of_lt_of_le (lt_of_mem_reached member) lt)
  · rw [Nat.add_comm i]

lemma writeRows_rowAt {kv : Nat → R} (fits : (front ++ part).length ≤ capacity) :
    Ring.writeRows capacity (rowAt l kv front) front.length
      (part.mapIdx fun i x => l.kvRow x (front.length + i)) = rowAt l kv (front ++ part) := by
  rw [List.length_append] at fits
  funext j
  by_cases new : front.length ≤ j ∧ j < front.length + part.length
  · obtain ⟨i, rfl⟩ := Nat.exists_eq_add_of_le new.1
    have lt : i < part.length := by omega
    have row : (part.mapIdx fun i x => l.kvRow x (front.length + i))[i]? =
        some (l.kvRow part[i] (front.length + i)) := by
      rw [List.getElem?_mapIdx, List.getElem?_eq_getElem lt]
      rfl
    have few : (part.mapIdx fun i x => l.kvRow x (front.length + i)).length ≤ capacity := by
      rw [List.length_mapIdx]
      omega
    have read : Ring.writeRows capacity (rowAt l kv front) front.length
        (part.mapIdx fun i x => l.kvRow x (front.length + i)) ((front.length + i) % capacity) =
          l.kvRow part[i] (front.length + i) := Ring.writeRows_at few row
    rw [Nat.mod_eq_of_lt (by omega)] at read
    rw [read, rowAt, List.getElem?_append_right new.1, Nat.add_sub_cancel_left,
      List.getElem?_eq_getElem lt]
  · rw [Ring.writeRows_of_ne]
    · by_cases old : j < front.length
      · exact (rowAt_append_left old).symm
      · rw [rowAt_of_le (by omega), rowAt_of_le (by rw [List.length_append]; omega)]
    · intro i lt
      rw [List.length_mapIdx] at lt
      rw [Nat.mod_eq_of_lt (by omega)]
      omega

lemma prefillChunk_windowed (fits : n ≤ capacity) (le : (front ++ part).length ≤ n) :
    prefillChunk opts capacity n l (windowed (opts.reach n) l s front).1 front.length part =
      ((windowed (opts.reach n) l s (front ++ part)).1,
        part.mapIdx fun i x => l.block x (front.length + i)
          ((reached (opts.reach n) (front.length + i)).map (rowAt l s.kv (front ++ part)))) := by
  have rows : Ring.writeRows capacity (rowAt l s.kv front) front.length
      (part.mapIdx fun i x => l.kvRow x (front.length + i)) = rowAt l s.kv (front ++ part) :=
    writeRows_rowAt (le.trans fits)
  rw [List.length_append] at le
  have slots : ∀ j, j < front.length + part.length →
      prefillSlots opts capacity n (front.length + part.length) j = reached (opts.reach n) j :=
    fun j lt => prefillSlots_eq lt le fits
  unfold prefillChunk windowed
  dsimp only
  rw [rows]
  refine congrArg₂ Prod.mk (congrArg (KvCache.mk _) (funext fun j => ?_))
    (List.mapIdx_eq_mapIdx_iff.mpr fun i lt => ?_)
  · rw [List.length_append]
    by_cases new : front.length ≤ j ∧ j < front.length + part.length
    · rw [if_pos new, if_pos new.2, slots j new.2]
    · rw [if_neg new]
      by_cases old : j < front.length
      · rw [if_pos old, if_pos (by omega)]
      · rw [if_neg old, if_neg (by omega)]
  · rw [slots _ (Nat.add_lt_add_left lt _)]

lemma windowed_nil : windowed w l s [] = (s, []) := rfl

lemma PrefillOptions.chunkSize_pos (pos : 0 < n) : 0 < opts.chunkSize n := by
  unfold chunkSize
  split_ifs with whole
  · exact pos
  · omega

lemma prefillChunks_eq (fits : xs.length ≤ capacity) (size b : Nat)
    (begins : b * size < xs.length + size) : prefillChunks opts capacity l s xs size b =
      windowed (opts.reach xs.length) l s (xs.take (b * size)) := by
  induction b with
  | zero =>
    rw [Nat.zero_mul, List.take_zero, windowed_nil]
    rfl
  | succ b ih =>
    have next : (b + 1) * size = b * size + size := Nat.succ_mul b size
    have split : xs.take (b * size) ++ slice xs (b * size) ((b + 1) * size) =
        xs.take ((b + 1) * size) := take_append_slice xs (by omega)
    have start : (xs.take (b * size)).length = b * size := List.length_take_of_le (by omega)
    have few : (xs.take (b * size) ++ slice xs (b * size) ((b + 1) * size)).length ≤
        xs.length := by
      rw [split, List.length_take]
      exact Nat.min_le_right _ _
    have chunk : prefillChunk opts capacity xs.length l _ _ _ = _ :=
      prefillChunk_windowed (s := s) fits few
    have out : (windowed (opts.reach xs.length) l s (_ ++ _)).2 = _ :=
      windowed_append (xs.take (b * size)) (slice xs (b * size) ((b + 1) * size))
    rw [start, split] at chunk out
    rw [prefillChunks, ih (by omega)]
    dsimp only
    rw [chunk, ← out]

lemma prefillLayer_eq (pos : 0 < xs.length) (fits : xs.length ≤ capacity) :
    prefillLayer opts capacity l s xs = windowed (opts.reach xs.length) l s xs := by
  have size : 0 < opts.chunkSize xs.length := PrefillOptions.chunkSize_pos pos
  have division := Nat.div_add_mod (xs.length + opts.chunkSize xs.length - 1)
    (opts.chunkSize xs.length)
  have rest := Nat.mod_lt (xs.length + opts.chunkSize xs.length - 1) size
  rw [Nat.mul_comm] at division
  unfold prefillLayer
  dsimp only
  rw [prefillChunks_eq fits _ _ (by omega), List.take_of_length_le (by omega)]

lemma layerStep_windowed (lt : front.length < w) :
    layerStep l (windowed w l s front).1 front.length x =
      ((windowed w l s (front ++ [x])).1, l.block x front.length
        ((reached w front.length).map (rowAt l s.kv (front ++ [x])))) := by
  have row : Function.update (rowAt l s.kv front) front.length (l.kvRow x front.length) =
      rowAt l s.kv (front ++ [x]) := by
    funext j
    rcases Nat.lt_trichotomy j front.length with before | rfl | after
    · rw [Function.update_of_ne before.ne, rowAt_append_left before]
    · rw [Function.update_self, rowAt, List.getElem?_concat_length]
    · rw [Function.update_of_ne after.ne', rowAt_of_le after.le, rowAt_of_le]
      rw [List.length_append]
      exact after
  unfold layerStep windowed
  dsimp only
  rw [row, ← reached_full lt]
  refine congrArg₂ Prod.mk (congrArg (KvCache.mk _) (funext fun j => ?_)) rfl
  rw [List.length_append, List.length_singleton]
  rcases Nat.lt_trichotomy j front.length with before | rfl | after
  · rw [Function.update_of_ne before.ne, if_pos before, if_pos (by omega)]
  · rw [Function.update_self, if_pos (Nat.lt_succ_self _)]
  · rw [Function.update_of_ne after.ne', if_neg (by omega), if_neg (by omega)]

lemma stage_windowed (le : xs.length ≤ w) : stage layerStep l s 0 xs = windowed w l s xs := by
  induction xs using List.reverseRecOn with
  | nil => exact windowed_nil.symm
  | append_singleton front x ih =>
    rw [List.length_append, List.length_singleton] at le
    rw [stage_append, ih (by omega), Nat.zero_add]
    have last := layerStep_windowed (l := l) (s := s) (x := x) (w := w) (show front.length < w from le)
    simp only [stage_cons, stage_nil, last]
    rw [Prod.ext_iff]
    exact ⟨rfl, (windowed_append front [x]).symm⟩

/-! ## The stack of layers -/

/-- Caches that agree below position `q`, and from position `n` on. -/
def Agree (n q : Nat) (s s' : KvCache R) : Prop :=
  ∀ j, j < q ∨ n ≤ j → s.kv j = s'.kv j ∧ s.attended j = s'.attended j

lemma Agree.eq (agree : Agree n n s s') : s = s' := by
  cases s with
  | mk kv attended =>
    cases s' with
    | mk kv' attended' =>
      have both := fun j => agree j (Nat.lt_or_ge j n)
      exact congrArg₂ KvCache.mk (funext fun j => (both j).1) (funext fun j => (both j).2)

lemma Agree.layerStep {q : Nat} (agree : Agree n q s s') (x : X) :
    Agree n (q + 1) (layerStep l s q x).1 (layerStep l s' q x).1 ∧
      (layerStep l s q x).2 = (layerStep l s' q x).2 := by
  have below : ∀ j, j < q + 1 → Function.update s.kv q (l.kvRow x q) j =
      Function.update s'.kv q (l.kvRow x q) j := by
    intro j lt
    by_cases here : j = q
    · rw [here, Function.update_self, Function.update_self]
    · rw [Function.update_of_ne here, Function.update_of_ne here]
      exact (agree j (Or.inl (by omega))).1
  refine ⟨fun j which => ?_, congrArg (l.block x q) (List.map_congr_left fun j member => ?_)⟩
  · by_cases here : j = q
    · subst here
      simp [Gguf.layerStep]
    · have before : j < q ∨ n ≤ j := by omega
      simpa [Gguf.layerStep, here] using agree j before
  · exact below j (List.mem_range.mp member)

lemma windowed_front : Agree (front ++ part).length front.length
    (windowed w l s (front ++ part)).1 (windowed w l s front).1 := by
  intro j which
  have length : (front ++ part).length = front.length + part.length := List.length_append
  unfold windowed
  dsimp only
  rcases which with before | after
  · rw [if_pos before, if_pos (by omega)]
    exact ⟨rowAt_append_left before, rfl⟩
  · rw [if_neg (by omega), if_neg (by omega), rowAt_of_le after, rowAt_of_le (by omega)]
    exact ⟨rfl, rfl⟩

@[simp] lemma length_windowed : (windowed w l s xs).2.length = xs.length := List.length_mapIdx

lemma prefillLayers_agree {q : Nat} (session : Session X R) (pos : 0 < xs.length)
    (fits : xs.length ≤ capacity) (le : q ≤ xs.length) (reach : q ≤ opts.reach xs.length) :
    Related (fun _ p => Agree xs.length p) q (prefillLayers opts capacity session xs).1
        (feedAll layerStep session 0 (xs.take q)).1 ∧
      (prefillLayers opts capacity session xs).2.take q =
        (feedAll layerStep session 0 (xs.take q)).2 := by
  induction session generalizing xs with
  | nil =>
    rw [feedAll_nil_stack]
    exact ⟨.nil, rfl⟩
  | cons slot rest ih =>
    obtain ⟨l, s⟩ := slot
    have few : (xs.take q).length = q := List.length_take_of_le le
    have here : prefillLayer opts capacity l s xs = windowed (opts.reach xs.length) l s xs :=
      prefillLayer_eq pos fits
    have dense : stage layerStep l s 0 (xs.take q) =
        windowed (opts.reach xs.length) l s (xs.take q) := stage_windowed (by omega)
    have front : Agree (xs.take q ++ xs.drop q).length (xs.take q).length
        (windowed (opts.reach xs.length) l s (xs.take q ++ xs.drop q)).1
        (windowed (opts.reach xs.length) l s (xs.take q)).1 := windowed_front
    have outs := windowed_append (w := opts.reach xs.length) (l := l) (s := s) (xs.take q)
      (xs.drop q)
    rw [List.take_append_drop] at front outs
    rw [few] at front
    have out : (windowed (opts.reach xs.length) l s xs).2.take q =
        (windowed (opts.reach xs.length) l s (xs.take q)).2 := by
      rw [outs]
      exact List.take_left' (length_windowed.trans few)
    have same : (windowed (opts.reach xs.length) l s xs).2.length = xs.length := length_windowed
    obtain ⟨states, values⟩ := @ih (windowed (opts.reach xs.length) l s xs).2
      (by omega) (by omega) (by omega) (by rwa [same])
    rw [feedAll_cons, dense, ← out, prefillLayers, here]
    dsimp only
    rw [same] at states
    exact ⟨.cons ⟨rfl, front⟩ states, values⟩

lemma length_prefillLayers (session : Session X R) (pos : 0 < xs.length)
    (fits : xs.length ≤ capacity) :
    (prefillLayers opts capacity session xs).2.length = xs.length := by
  induction session generalizing xs with
  | nil => rfl
  | cons slot rest ih =>
    obtain ⟨l, s⟩ := slot
    have same : (windowed (opts.reach xs.length) l s xs).2.length = xs.length := length_windowed
    rw [prefillLayers, prefillLayer_eq pos fits]
    exact (ih (by omega) (by omega)).trans same

end Windows

section Prompts

variable {e : Engine T X R} {opts : PrefillOptions} {session : Session X R} {tokens : List T}

lemma Engine.runSteps_eq (session : Session X R) (position : Nat) (tokens : List T) :
    e.runSteps session position tokens =
      ((feedAll layerStep session position (tokens.map e.embed)).1,
        (feedAll layerStep session position (tokens.map e.embed)).2.map e.argmax) := by
  induction tokens generalizing session position with
  | nil => rfl
  | cons token rest ih =>
    simp only [Engine.runSteps, ih]
    rfl

lemma PrefillOptions.refine_le (n : Nat) : opts.refine n ≤ n := Nat.min_le_right _ _

lemma runChunkedPrefill_eq (some : tokens ≠ []) (fits : tokens.length ≤ e.cacheCapacity)
    (covers : tokens.length ≤ opts.reach tokens.length + opts.refine tokens.length) :
    e.runChunkedPrefill opts session tokens = e.runPrompt session tokens := by
  have pos : 0 < tokens.length := List.length_pos_iff.mpr some
  have few : opts.refine tokens.length ≤ tokens.length := PrefillOptions.refine_le _
  obtain ⟨q, start⟩ : ∃ q, q = tokens.length - opts.refine tokens.length := ⟨_, rfl⟩
  obtain ⟨xs, inputs⟩ : ∃ xs, xs = tokens.map e.embed := ⟨_, rfl⟩
  have length : xs.length = tokens.length := by rw [inputs, List.length_map]
  have front : (xs.take q).length = q := List.length_take_of_le (by omega)
  -- up to `q` prefill is right; from there on the decode step overwrites what it has left
  obtain ⟨states, values⟩ : Related (fun _ p => Agree xs.length p) q
      (prefillLayers opts e.cacheCapacity session xs).1 _ ∧ _ :=
    prefillLayers_agree session (by omega) (by omega) (by omega) (by rw [length]; omega)
  have keeps : ∀ {l : Layer X R} {p : Nat} {s s' : KvCache R} (x : X), Agree xs.length p s s' →
      Agree xs.length (p + 1) (layerStep l s p x).1 (layerStep l s' p x).1 ∧
        (layerStep l s p x).2 = (layerStep l s' p x).2 := fun x agree => agree.layerStep x
  obtain ⟨after, refined⟩ : Related (fun _ p => Agree xs.length p) _ (feedAll layerStep
      (prefillLayers opts e.cacheCapacity session xs).1 q (xs.drop q)).1 _ ∧ _ :=
    states.feedAll keeps (xs.drop q)
  rw [List.length_drop, show q + (xs.length - q) = xs.length by omega] at after
  have stepped : feedAll layerStep session 0 xs = _ :=
    (congrArg _ (List.take_append_drop q xs).symm).trans (feedAll_append session)
  rw [front, Nat.zero_add] at stepped
  unfold Engine.runChunkedPrefill Engine.runPrompt
  dsimp only
  rw [← start, ← inputs, Engine.runSteps_eq, Engine.runSteps_eq, List.map_drop, ← inputs, stepped]
  dsimp only
  refine congrArg₂ Prod.mk (after.eq Agree.eq) ?_
  rw [refined, List.map_append, List.getLast?_append]
  by_cases all : q = xs.length
  · -- nothing is fed once more
    have whole : (prefillLayers opts e.cacheCapacity session xs).2.length = xs.length :=
      length_prefillLayers session (by omega) (by omega)
    have taken : (prefillLayers opts e.cacheCapacity session xs).2.take q =
        (prefillLayers opts e.cacheCapacity session xs).2 := List.take_of_length_le (by omega)
    rw [← values, taken]
    simp only [List.getLast?_map]
  · have more : ((feedAll layerStep (feedAll layerStep session 0 (xs.take q)).1 q
        (xs.drop q)).2.map e.argmax).getLast?.isSome := by
      rw [List.getLast?_isSome, ← List.length_pos_iff, List.length_map, length_feedAll,
        List.length_drop]
      omega
    rw [Option.or_of_isSome more, Option.or_of_isSome more]

lemma stage_attended {l : Layer X R} {s : KvCache R} {q j : Nat} (before : j < q) (xs : List X) :
    (stage layerStep l s q xs).1.attended j = s.attended j := by
  let P : Nat → KvCache R → Prop := fun p t => j < p ∧ t.attended j = s.attended j
  refine (stage_invariant (P := P) ⟨before, rfl⟩ fun {p t x} _ kept => ?_).2
  exact ⟨kept.1.trans (Nat.lt_succ_self p), (Function.update_of_ne kept.1.ne _ _).trans kept.2⟩

lemma not_chunkedRefines (some : session ≠ []) (fits : tokens.length ≤ e.cacheCapacity)
    (beyond : opts.reach tokens.length + opts.refine tokens.length < tokens.length) :
    ¬ e.ChunkedRefines opts session tokens := by
  intro refines
  obtain ⟨slot, rest, rfl⟩ := List.exists_cons_of_ne_nil some
  obtain ⟨l, s⟩ := slot
  obtain ⟨xs, inputs⟩ : ∃ xs, xs = tokens.map e.embed := ⟨_, rfl⟩
  obtain ⟨q, start⟩ : ∃ q, q = tokens.length - opts.refine tokens.length := ⟨_, rfl⟩
  have length : xs.length = tokens.length := by rw [inputs, List.length_map]
  have same := refines.attended
  unfold Engine.runChunkedPrefill Engine.runPrompt at same
  dsimp only at same
  rw [← start, ← inputs, Engine.runSteps_eq, Engine.runSteps_eq, ← inputs, feedAll_cons,
    prefillLayers, prefillLayer_eq (by omega) (by omega)] at same
  dsimp only at same
  rw [feedAll_cons, List.map_cons, List.map_cons] at same
  have here := congrFun (List.cons.inj same).1 (opts.reach tokens.length)
  dsimp only at here
  have dense : stage layerStep l s 0 xs = windowed xs.length l s xs := stage_windowed le_rfl
  rw [stage_attended (by omega), dense] at here
  unfold windowed at here
  dsimp only at here
  have full : reached tokens.length (opts.reach tokens.length) =
      List.range (opts.reach tokens.length + 1) := reached_full (by omega)
  rw [if_pos (by omega), if_pos (by omega), length, full] at here
  exact reached_ne le_rfl here

/-- For any engine, weights, settings, prompt that fits the cache and chunk size: chunked prefill
agrees with the decode step, position by position, exactly when the window of its attention and the
last tokens that it feeds once more are as many as the prompt has. -/
theorem chunkedRefines_iff (e : Engine T X R) (opts : PrefillOptions) (session : Session X R)
    (layers : session ≠ []) (seedTokens : List T) (some : seedTokens ≠ [])
    (fits : seedTokens.length ≤ e.cacheCapacity) :
    e.ChunkedRefines opts session seedTokens ↔
      seedTokens.length ≤ opts.reach seedTokens.length + opts.refine seedTokens.length := by
  constructor
  · intro refines
    by_contra beyond
    exact not_chunkedRefines layers fits (Nat.lt_of_not_le beyond) refines
  · intro covers
    have same : e.runChunkedPrefill opts session seedTokens = e.runPrompt session seedTokens :=
      runChunkedPrefill_eq some fits covers
    exact ⟨by rw [same], by rw [same], by rw [same], fun _ _ _ _ => by rw [same]⟩

end Prompts

/-! ## A prompt beyond the window -/

/-- An engine with room for 200 positions. -/
def counting : Engine Nat Nat Nat := ⟨200, id, id⟩

/-- A layer that adds up the rows it attends to. -/
def summing : Session Nat Nat :=
  [(⟨fun x _ => x, fun x _ rows => x + rows.sum⟩, ⟨fun _ => 0, fun _ => []⟩)]

/-- The settings when no variable is set, for a model with a window of 128. -/
def defaultOptions : PrefillOptions where
  chunkTokens := 512
  attnWindow := 128
  indexedAttn := true
  attnMaxIndexElems := 64 * 1024 * 1024
  indexedAttnMaxTopk := 8192
  refineLastTokens := 0

theorem chunkedRefines_iff_short : counting.ChunkedRefines defaultOptions summing [1, 2, 3] ↔
    3 ≤ defaultOptions.reach 3 + defaultOptions.refine 3 :=
  chunkedRefines_iff counting defaultOptions summing nofun [1, 2, 3] nofun (by decide)

/-- The last of 129 tokens does not attend to the first one. -/
theorem not_chunkedRefines_long : ¬ ∀ seedTokens : List Nat, seedTokens ≠ [] →
    seedTokens.length ≤ counting.cacheCapacity →
      counting.ChunkedRefines defaultOptions summing seedTokens := by
  intro claim
  have length : (List.replicate 129 1).length = 129 := List.length_replicate
  have some : List.replicate 129 1 ≠ [] := List.ne_nil_of_length_pos (by omega)
  have layers : summing ≠ [] := List.cons_ne_nil _ _
  refine not_chunkedRefines layers ?_ ?_ (claim (List.replicate 129 1) some ?_)
  · rw [length]
    decide
  · rw [length]
    decide
  · rw [length]
    decide

end PocketMoE.Gguf
