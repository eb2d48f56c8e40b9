import PocketMoE.Engine.Session
import PocketMoE.Lib.Ring

/-!
# A prompt in a layer

What prefill does with a layer. Every prompt token writes its row to the window ring and reads the
rows of its window; so does a decoded token in a layer where decode has nothing else to feed or to
read (`QuietLayer`, `quiet_stage`). The unbatched path does so token by token, the batched one chunk
by chunk with the attention on the rows of the prompt (`prefillLayer_eq`).

Only the ring may differ: the copy kernel writes the rows of a chunk in any order, and a chunk longer
than the ring leaves any of the rows that share a slot, unless the last chunk overwrites all of them.
With `SafeCopy` the order does not matter (`kvAfter_safe`).
-/

namespace PocketMoE.Engine
open PocketMoE.Lib PocketMoE.Ring PocketMoE.Tensor

variable {T X K α : Type}

/-- Equal caches, and equal rows read at every position. -/
def Same (s s' : LayerState K) : Prop := s.cache = s'.cache ∧ s.reads = s'.reads

/-- For `n` prompt tokens, decode neither feeds a compressor of the layer nor reads a compressed
cell. -/
def QuietLayer (l : LayerConfig) (n : Nat) : Prop :=
  l.compressRatio = 0 ∨ (¬ l.compresses ∧ n < l.compressRatio)

/-- The number of tokens in the last chunk of a prompt. -/
def lastChunk (size n : Nat) : Nat := (n - 1) % size + 1

/-- The copies into the ring leave the same in every order. -/
def SafeCopy (cfg : EngineConfig) (opts : PrefillOptions) (n : Nat) : Prop :=
  opts.batchedAttn = true →
    opts.chunkSize n ≤ cfg.windowSize ∨ lastChunk (opts.chunkSize n) n = cfg.windowSize

/-- The rows of the window of a position, in order. -/
def windowRows (w : Nat) (row : Nat → Row K) (position : Nat) : List (Row K) :=
  (List.range (min (position + 1) w)).map fun i => row (position + 1 - min (position + 1) w + i)

section Streams

variable {cfg : EngineConfig} {opts : PrefillOptions} {expo : K → K} {l : Layer X K}
  {s s' : LayerState K} {n : Nat}

/-! ## Decode in a quiet layer -/

lemma QuietLayer.not_compresses {l : LayerConfig} (quiet : QuietLayer l n) : ¬ l.compresses := by
  rcases quiet with zero | ⟨no, -⟩
  · exact fun ⟨pos, _⟩ => absurd zero pos.ne'
  · exact no

lemma QuietLayer.none_ready {l : LayerConfig} (quiet : QuietLayer l n) {p : Nat} (lt : p < n) :
    compressedReady l p = 0 := by
  unfold compressedReady
  rcases quiet with zero | ⟨-, few⟩
  · rw [if_pos zero]
  · rw [Nat.div_eq_of_lt (by omega), ite_self]

/-- The ring slot that a position's row goes to. -/
def writeSlot (cfg : EngineConfig) (l : Layer X K) (c : LayerCache K) (x : X) (p : Nat) :
    LayerCache K :=
  { c with kv := Function.update c.kv (p % cfg.windowSize) (l.kvRow x p) }

lemma decodeCall_quiet [Field K] [LinearOrder K] (quiet : QuietLayer l.toLayerConfig n)
    (c : LayerCache K) (x : X) {p : Nat} (lt : p < n) :
    (decodeCall cfg expo l c x p).cache = writeSlot cfg l c x p ∧
      (decodeCall cfg expo l c x p).rows =
        ((windowSlots cfg p).map (writeSlot cfg l c x p).kv : List (Row K)) ∧
      (decodeCall cfg expo l c x p).out = l.block x p (decodeCall cfg expo l c x p).rows := by
  have ready := quiet.none_ready lt
  have plain : ¬ (l.indexes ∧ 0 < compressedReady l.toLayerConfig p) := by
    rw [ready]
    exact fun both => absurd both.2 (lt_irrefl 0)
  rw [decodeCall_plain plain, runCompressor_idle quiet.not_compresses, ready]
  refine ⟨rfl, ?_, rfl⟩
  simp [attendCall, writeSlot]

lemma prefillCall_eq (c : LayerCache K) (x : X) (p : Nat) :
    (prefillCall cfg l c x p).cache = writeSlot cfg l c x p ∧
      (prefillCall cfg l c x p).rows =
        ((windowSlots cfg p).map (writeSlot cfg l c x p).kv : List (Row K)) ∧
      (prefillCall cfg l c x p).out = l.block x p (prefillCall cfg l c x p).rows := by
  refine ⟨rfl, ?_, rfl⟩
  have len : min (cfg.capacity l.toLayerConfig) (min (p + 1) cfg.windowSize) =
      min (p + 1) cfg.windowSize := by
    refine Nat.min_eq_right (le_trans (Nat.min_le_right _ _) ?_)
    exact Nat.le_add_right _ _
  simp only [prefillCall, len]
  exact Multiset.coe_eq_coe.mpr ((slots_perm cfg.windowSize_pos p).symm.map _)

lemma window_read {row : Nat → Row K} {kv : Nat → Row K} {p : Nat}
    (holds : Holds cfg.windowSize row kv 0 (p + 1)) :
    (windowSlots cfg p).map kv = windowRows cfg.windowSize row p := by
  simp only [windowSlots, windowRows, List.map_map]
  refine List.map_congr_left fun i member => ?_
  have lt := List.mem_range.mp member
  exact holds _ (Nat.zero_le _) (by omega) (by omega)

/-- The rows of the first positions, written in order. -/
def ringAfter (cfg : EngineConfig) (row : Nat → Row K) (kv : Nat → Row K) (n : Nat) :
    Nat → Row K :=
  writeRows cfg.windowSize kv 0 ((List.range n).map row)

lemma ringAfter_holds (row : Nat → Row K) (kv : Nat → Row K) (n : Nat) :
    Holds cfg.windowSize row (ringAfter cfg row kv n) 0 n := by
  have start : Holds cfg.windowSize row kv 0 0 := Holds.start
  simpa [ringAfter] using start.writeRows (k := n)

lemma ringAfter_succ (row : Nat → Row K) (kv : Nat → Row K) (n : Nat) :
    ringAfter cfg row kv (n + 1) =
      Function.update (ringAfter cfg row kv n) (n % cfg.windowSize) (row n) := by
  simp [ringAfter, List.range_succ, writeRows_append, writeRows]

/-- A layer after `n` tokens that only wrote the ring and read their windows. -/
structure Windowed (cfg : EngineConfig) (l : Layer X K) (x : Nat → X) (s : LayerState K) (n : Nat)
    (result : LayerState K × List X) : Prop where
  cache : result.1.cache =
    { s.cache with kv := ringAfter cfg (fun p => l.kvRow (x p) p) s.cache.kv n }
  reads : result.1.reads = fun p =>
    if p < n then (windowRows cfg.windowSize (fun p => l.kvRow (x p) p) p : Multiset (Row K))
    else s.reads p
  out : result.2 = (List.range n).map fun p =>
    l.block (x p) p (windowRows cfg.windowSize (fun p => l.kvRow (x p) p) p)

lemma Windowed.agree {x : Nat → X} {result result' : LayerState K × List X}
    (left : Windowed cfg l x s n result) (right : Windowed cfg l x s n result') :
    Same result.1 result'.1 ∧ result.2 = result'.2 :=
  ⟨⟨left.cache.trans right.cache.symm, left.reads.trans right.reads.symm⟩,
    left.out.trans right.out.symm⟩

lemma Windowed.next {x : Nat → X} {result : LayerState K × List X} {call : LayerCall X K}
    (windowed : Windowed cfg l x s n result)
    (cache : call.cache = writeSlot cfg l result.1.cache (x n) n)
    (rows : call.rows =
      ((windowSlots cfg n).map (writeSlot cfg l result.1.cache (x n) n).kv : List (Row K)))
    (out : call.out = l.block (x n) n call.rows) :
    Windowed cfg l x s (n + 1) (result.1.record n call, result.2 ++ [call.out]) := by
  have kv : (writeSlot cfg l result.1.cache (x n) n).kv =
      ringAfter cfg (fun p => l.kvRow (x p) p) s.cache.kv (n + 1) := by
    rw [writeSlot, windowed.cache, ringAfter_succ]
  have read : call.rows =
      (windowRows cfg.windowSize (fun p => l.kvRow (x p) p) n : Multiset (Row K)) := by
    rw [rows, kv, window_read (ringAfter_holds _ _ _)]
  refine ⟨?_, ?_, ?_⟩
  · rw [LayerState.record, cache, ← kv, writeSlot, windowed.cache]
  · funext p
    simp only [LayerState.record, windowed.reads, Function.update_apply]
    rcases Nat.lt_trichotomy p n with lt | rfl | gt
    · rw [if_neg lt.ne, if_pos lt, if_pos (by omega)]
    · rw [if_pos rfl, if_pos (by omega), read]
    · rw [if_neg gt.ne', if_neg (by omega), if_neg (by omega)]
  · rw [windowed.out, List.range_succ, List.map_append, List.map_singleton, out, read]

lemma Windowed.start (cfg : EngineConfig) (l : Layer X K) (x : Nat → X) (s : LayerState K) :
    Windowed cfg l x s 0 (s, []) := by
  refine ⟨?_, ?_, rfl⟩
  · rfl
  · simp

lemma Windowed.calls (step : Layer X K → LayerState K → Nat → X → LayerState K × X)
    (call : LayerCache K → X → Nat → LayerCall X K) {x : Nat → X}
    (calls : ∀ s p a, step l s p a = (s.record p (call s.cache a p), (call s.cache a p).out))
    {kvs : List X} (k : Nat) (windowed : Windowed cfg l x s n (s', kvs))
    (writes : ∀ c p, p < n + k → (call c (x p) p).cache = writeSlot cfg l c (x p) p ∧
      (call c (x p) p).rows =
        ((windowSlots cfg p).map (writeSlot cfg l c (x p) p).kv : List (Row K)) ∧
      (call c (x p) p).out = l.block (x p) p (call c (x p) p).rows) :
    Windowed cfg l x s (n + k)
      ((stage step l s' n ((List.range k).map fun i => x (n + i))).1,
        kvs ++ (stage step l s' n ((List.range k).map fun i => x (n + i))).2) := by
  induction k with
  | zero => simpa using windowed
  | succ k ih =>
    have before := ih fun c p lt => writes c p (by omega)
    rw [List.range_succ, List.map_append, stage_append, List.map_singleton, stage_cons,
      List.length_map, List.length_range, calls, stage_nil, ← List.append_assoc]
    obtain ⟨cache, rows, out⟩ := writes
      (stage step l s' n ((List.range k).map fun i => x (n + i))).1.cache (n + k) (by omega)
    exact before.next cache rows out

lemma quiet_stage [Field K] [LinearOrder K] (quiet : QuietLayer l.toLayerConfig n) (x : Nat → X)
    (s : LayerState K) :
    Windowed cfg l x s n (stage (decodeLayer cfg expo) l s 0 ((List.range n).map x)) := by
  have all := (Windowed.start cfg l x s).calls (decodeLayer cfg expo)
    (decodeCall cfg expo l) (fun _ _ _ => rfl) n
    (fun c p lt => decodeCall_quiet quiet c (x p) (by omega))
  simpa using all

/-! ## The chunks of a prompt -/

lemma selectRows_window {row : Nat → Row K} {len p : Nat} (here : p < len) (inside : p < n) :
    selectRows ((List.range len).map row) (prefillWindowIndices cfg n p) =
      (windowRows cfg.windowSize row p : Multiset (Row K)) := by
  have start : p + 1 - min (p + 1) cfg.windowSize = p + 1 - cfg.windowSize := by omega
  have count : p - (p + 1 - cfg.windowSize) + 1 = min (p + 1) cfg.windowSize := by
    have := cfg.windowSize_pos
    omega
  have few : min (p + 1) cfg.windowSize ≤ min n cfg.windowSize := by omega
  rw [selectRows, prefillWindowIndices, windowRows, start, count, List.filterMap_map]
  refine congrArg _ (filterMap_range few _ ?_ ?_)
  · intro i lt
    have shown : ¬ ((p + 1 - cfg.windowSize + i : Nat) : Int) < 0 := by omega
    have row_lt : p + 1 - cfg.windowSize + i < len := by omega
    simp only [Function.comp_apply, if_pos lt, if_neg shown, Int.toNat_natCast]
    simp [row_lt]
  · intro i ge
    simp only [Function.comp_apply, if_neg (Nat.not_lt.mpr ge)]
    rfl

/-- The ring after the copies of the first `b` chunks of size `size`. -/
def copied (cfg : EngineConfig) (order : CopyOrder cfg.windowSize) (layer : Nat)
    (row : Nat → Row K) (size n : Nat) (kv : Nat → Row K) : Nat → Nat → Row K
  | 0 => kv
  | b + 1 =>
    let k := min ((b + 1) * size) n - b * size
    copyRows cfg.windowSize (b * size) (order.winner layer (b * size) k)
      ((List.range k).map fun i => row (b * size + i))
      (copied cfg order layer row size n kv b)

/-- The batched path: every token reads its window, the ring is copied chunk by chunk. -/
structure Batched (cfg : EngineConfig) (order : CopyOrder cfg.windowSize) (layer : Nat)
    (l : Layer X K) (x : Nat → X) (s : LayerState K) (size n b : Nat)
    (result : LayerState K × List (Row K) × List X) : Prop where
  cache : result.1.cache = { s.cache with
    kv := copied cfg order layer (fun p => l.kvRow (x p) p) size n s.cache.kv b }
  reads : result.1.reads = fun p =>
    if p < min (b * size) n then
      (windowRows cfg.windowSize (fun p => l.kvRow (x p) p) p : Multiset (Row K))
    else s.reads p
  kvNorm : result.2.1 = (List.range (min (b * size) n)).map fun p => l.kvRow (x p) p
  out : result.2.2 = (List.range (min (b * size) n)).map fun p =>
    l.block (x p) p (windowRows cfg.windowSize (fun p => l.kvRow (x p) p) p)

lemma chunk_rows (f : Nat → X → α) (x : Nat → X) (start k : Nat) :
    (List.range start).map (fun p => f p (x p)) ++
        ((List.range k).map fun i => x (start + i)).mapIdx (fun i a => f (start + i) a) =
      (List.range (start + k)).map fun p => f p (x p) := by
  rw [mapIdx_map_range, List.range_add, List.map_append, List.map_map]
  rfl

lemma Batched.next {order : CopyOrder cfg.windowSize} {layer : Nat} {x : Nat → X} {size b k : Nat}
    {kvNorm : List (Row K)} {ys : List X}
    (before : Batched cfg order layer l x s size n b (s', kvNorm, ys)) (lt : b * size < n)
    (top : min ((b + 1) * size) n = b * size + k) :
    Batched cfg order layer l x s size n (b + 1)
      ((prefillBatch cfg l (order.winner layer (b * size) k) n s' kvNorm (b * size)
          ((List.range k).map fun i => x (b * size + i))).1,
        (prefillBatch cfg l (order.winner layer (b * size) k) n s' kvNorm (b * size)
          ((List.range k).map fun i => x (b * size + i))).2.1,
        ys ++ (prefillBatch cfg l (order.winner layer (b * size) k) n s' kvNorm (b * size)
          ((List.range k).map fun i => x (b * size + i))).2.2) := by
  obtain ⟨cache, reads, rows, out⟩ := before
  rw [Nat.min_eq_left lt.le] at reads rows out
  dsimp only at cache reads rows out
  subst rows out
  have all := chunk_rows (fun p a => l.kvRow a p) x (b * size) k
  have read : ∀ p, p < b * size + k →
      selectRows ((List.range (b * size + k)).map fun p => l.kvRow (x p) p)
        (prefillWindowIndices cfg n p) =
      (windowRows cfg.windowSize (fun p => l.kvRow (x p) p) p : Multiset (Row K)) :=
    fun p here => selectRows_window here (by omega)
  simp only [prefillBatch, all, List.length_map, List.length_range]
  refine ⟨?_, ?_, ?_, ?_⟩
  · simp only [cache, copied, top, Nat.add_sub_cancel_left, mapIdx_map_range]
  · funext p
    dsimp only
    by_cases new : b * size ≤ p ∧ p < b * size + k
    · rw [if_pos new, if_pos (by omega), read p new.2]
    · rw [if_neg new, reads]
      dsimp only
      by_cases old : p < b * size
      · rw [if_pos old, if_pos (by omega)]
      · rw [if_neg old, if_neg (by omega)]
  · rw [top]
  · rw [top, ← chunk_rows (fun p a => l.block a p
      (windowRows cfg.windowSize (fun p => l.kvRow (x p) p) p)) x (b * size) k]
    simp only [mapIdx_map_range]
    refine congrArg _ (List.map_congr_left fun i member => ?_)
    have lt := List.mem_range.mp member
    rw [read (b * size + i) (by omega)]

lemma prefillChunks_batched (batched : opts.batchedAttn = true)
    (order : CopyOrder cfg.windowSize) (layer : Nat) (x : Nat → X) {size b : Nat}
    (inside : ∀ a, a < b → a * size < n) :
    Batched cfg order layer l x s size n b
      (prefillChunks cfg opts order layer l s ((List.range n).map x) size b) := by
  induction b with
  | zero =>
    refine ⟨rfl, ?_, by simp [prefillChunks], by simp [prefillChunks]⟩
    simp [prefillChunks]
  | succ b ih =>
    have before := ih fun a lt => inside a (by omega)
    have lt := inside b (Nat.lt_succ_self b)
    obtain ⟨k, top⟩ : ∃ k, min ((b + 1) * size) n = b * size + k := by
      refine Nat.exists_eq_add_of_le (le_min ?_ lt.le)
      exact Nat.mul_le_mul_right _ (Nat.le_succ b)
    rw [prefillChunks, slice_map_range_min, top, Nat.add_sub_cancel_left]
    simp only [batched, if_true, List.length_map, List.length_range]
    exact before.next lt top

/-! ## The copies into the ring -/

lemma copyRows_outside {w start slot : Nat} (hw : 0 < w) (winner : Nat → Nat → Nat)
    (rows : List (Row K)) (kv : Nat → Row K) (outside : w ≤ slot) :
    copyRows w start winner rows kv slot = kv slot := by
  funext col
  have ne : (start + winner slot col) % w ≠ slot := by
    have := Nat.mod_lt (start + winner slot col) hw
    omega
  rw [copyRows]
  cases rows[winner slot col]? with
  | none => rfl
  | some row => exact if_neg ne

lemma copyRows_of_ne {w start slot : Nat} (winner : Nat → Nat → Nat) (rows : List (Row K))
    (kv : Nat → Row K) (ne : ∀ r, r < rows.length → (start + r) % w ≠ slot) :
    copyRows w start winner rows kv slot = kv slot := by
  funext col
  rw [copyRows]
  cases row : rows[winner slot col]? with
  | none => rfl
  | some a => exact if_neg (ne _ (List.getElem?_eq_some_iff.mp row).1)

lemma copyRows_fits (order : CopyOrder cfg.windowSize) (layer start : Nat)
    (rows : List (Row K)) (kv : Nat → Row K) (fits : rows.length ≤ cfg.windowSize) :
    copyRows cfg.windowSize start (order.winner layer start rows.length) rows kv =
      writeRows cfg.windowSize kv start rows := by
  funext slot
  by_cases hit : ∃ r, r < rows.length ∧ (start + r) % cfg.windowSize = slot
  · obtain ⟨r, lt, here⟩ := hit
    have row := List.getElem?_eq_getElem lt
    rw [← here, writeRows_at fits row]
    funext col
    obtain ⟨inside, same⟩ := order.winner_slot layer start rows.length slot col r lt here
    -- the winner is the only row with this slot
    have only : order.winner layer start rows.length slot col = r := by
      rcases Nat.lt_trichotomy (order.winner layer start rows.length slot col) r
        with less | eq | more
      · exact absurd (same.trans here.symm) (slot_ne (by omega) (by omega))
      · exact eq
      · exact absurd (here.trans same.symm) (slot_ne (by omega) (by omega))
    rw [here, copyRows, only, row]
    exact if_pos here
  · have ne : ∀ r, r < rows.length → (start + r) % cfg.windowSize ≠ slot :=
      fun r lt here => hit ⟨r, lt, here⟩
    rw [copyRows_of_ne _ _ _ ne, writeRows_of_ne ne]

lemma copied_outside (order : CopyOrder cfg.windowSize) (layer : Nat) (row : Nat → Row K)
    (size : Nat) (kv : Nat → Row K) {slot : Nat} (outside : cfg.windowSize ≤ slot) (b : Nat) :
    copied cfg order layer row size n kv b slot = kv slot := by
  induction b with
  | zero => rfl
  | succ b ih => rw [copied, copyRows_outside cfg.windowSize_pos _ _ _ outside, ih]

lemma ringAfter_outside (row : Nat → Row K) (kv : Nat → Row K) {slot : Nat}
    (outside : cfg.windowSize ≤ slot) : ringAfter cfg row kv n slot = kv slot := by
  refine writeRows_of_ne fun i _ => ?_
  have := Nat.mod_lt (0 + i) cfg.windowSize_pos
  omega

lemma ringAfter_add (row : Nat → Row K) (kv : Nat → Row K) (k : Nat) :
    ringAfter cfg row kv (n + k) = writeRows cfg.windowSize (ringAfter cfg row kv n) n
      ((List.range k).map fun i => row (n + i)) := by
  rw [ringAfter, List.range_add, List.map_append, writeRows_append, List.map_map,
    List.length_map, List.length_range, Nat.zero_add]
  rfl

lemma copied_succ_fits (order : CopyOrder cfg.windowSize) (layer : Nat) (row : Nat → Row K)
    {size b k : Nat} (kv : Nat → Row K) (top : min ((b + 1) * size) n = b * size + k)
    (fits : k ≤ cfg.windowSize) :
    copied cfg order layer row size n kv (b + 1) =
      writeRows cfg.windowSize (copied cfg order layer row size n kv b) (b * size)
        ((List.range k).map fun i => row (b * size + i)) := by
  have all := copyRows_fits order layer (b * size) ((List.range k).map fun i => row (b * size + i))
    (copied cfg order layer row size n kv b) (by simpa using fits)
  simp only [List.length_map, List.length_range] at all
  simp only [copied, top, Nat.add_sub_cancel_left]
  exact all

lemma copied_fits (order : CopyOrder cfg.windowSize) (layer : Nat) (row : Nat → Row K)
    {size b : Nat} (kv : Nat → Row K) (fits : size ≤ cfg.windowSize)
    (inside : ∀ a, a < b → a * size < n) :
    copied cfg order layer row size n kv b = ringAfter cfg row kv (min (b * size) n) := by
  induction b with
  | zero => simp [copied, ringAfter, writeRows]
  | succ b ih =>
    have lt := inside b (Nat.lt_succ_self b)
    obtain ⟨k, top⟩ : ∃ k, min ((b + 1) * size) n = b * size + k := by
      refine Nat.exists_eq_add_of_le (le_min ?_ lt.le)
      exact Nat.mul_le_mul_right _ (Nat.le_succ b)
    have few : k ≤ cfg.windowSize := by
      have next : (b + 1) * size = b * size + size := Nat.succ_mul b size
      omega
    rw [copied_succ_fits order layer row kv top few, ih fun a lt => inside a (by omega),
      Nat.min_eq_left lt.le, top, ringAfter_add]

lemma copied_full (order : CopyOrder cfg.windowSize) (layer : Nat) (row : Nat → Row K)
    {size b : Nat} (kv : Nat → Row K)
    (full : min ((b + 1) * size) n = b * size + cfg.windowSize) :
    copied cfg order layer row size n kv (b + 1) =
      ringAfter cfg row kv (b * size + cfg.windowSize) := by
  rw [copied_succ_fits order layer row kv full le_rfl, ringAfter_add]
  refine writeRows_full (by simp) fun slot outside => ?_
  rw [copied_outside order layer row size kv outside, ringAfter_outside row kv outside]

/-! ## A prompt in a layer -/

lemma chunkSize_pos (opts : PrefillOptions) (pos : 0 < n) : 0 < opts.chunkSize n := by
  unfold PrefillOptions.chunkSize
  split
  · exact pos
  · omega

lemma chunkSize_le (opts : PrefillOptions) (n : Nat) : opts.chunkSize n ≤ n := by
  unfold PrefillOptions.chunkSize
  split
  · exact le_rfl
  · omega

lemma chunk_count {size : Nat} (pos : 0 < n) (size_pos : 0 < size) :
    (n + size - 1) / size = (n - 1) / size + 1 ∧ n = (n - 1) / size * size + lastChunk size n := by
  have split := Nat.div_add_mod (n - 1) size
  rw [Nat.mul_comm] at split
  refine ⟨?_, ?_⟩
  · rw [show n + size - 1 = n - 1 + size from by omega, Nat.add_div_right _ size_pos]
  · rw [lastChunk]
    omega

lemma chunk_inside {size a : Nat} (pos : 0 < n) (lt : a < (n - 1) / size + 1) :
    a * size < n := by
  have le := Nat.mul_le_mul_right size (Nat.lt_succ_iff.mp lt)
  have := Nat.div_mul_le_self (n - 1) size
  omega

lemma prefillChunks_tokens (single : opts.batchedAttn = false) (order : CopyOrder cfg.windowSize)
    (layer : Nat) (x : Nat → X) {size b : Nat} (inside : ∀ a, a < b → a * size < n) :
    Windowed cfg l x s (min (b * size) n)
      ((prefillChunks cfg opts order layer l s ((List.range n).map x) size b).1,
        (prefillChunks cfg opts order layer l s ((List.range n).map x) size b).2.2) := by
  induction b with
  | zero => simpa [prefillChunks] using Windowed.start cfg l x s
  | succ b ih =>
    have before := ih fun a lt => inside a (by omega)
    have lt := inside b (Nat.lt_succ_self b)
    obtain ⟨k, top⟩ : ∃ k, min ((b + 1) * size) n = b * size + k := by
      refine Nat.exists_eq_add_of_le (le_min ?_ lt.le)
      exact Nat.mul_le_mul_right _ (Nat.le_succ b)
    rw [Nat.min_eq_left lt.le] at before
    rw [top, prefillChunks, slice_map_range_min, top, Nat.add_sub_cancel_left]
    simp only [single, Bool.false_eq_true, if_false]
    exact before.calls (prefillToken cfg) (prefillCall cfg l) (fun _ _ _ => rfl) k
      fun c p _ => prefillCall_eq c (x p) p

/-- The KV cache of a layer after a prompt. -/
def kvAfter (cfg : EngineConfig) (opts : PrefillOptions) (order : CopyOrder cfg.windowSize)
    (layer : Nat) (row : Nat → Row K) (kv : Nat → Row K) (n : Nat) : Nat → Row K :=
  if opts.batchedAttn then
    copied cfg order layer row (opts.chunkSize n) n kv ((n - 1) / opts.chunkSize n + 1)
  else ringAfter cfg row kv n

lemma kvAfter_safe (safe : SafeCopy cfg opts n) (pos : 0 < n) (order : CopyOrder cfg.windowSize)
    (layer : Nat) (row : Nat → Row K) (kv : Nat → Row K) :
    kvAfter cfg opts order layer row kv n = ringAfter cfg row kv n := by
  have size_pos := chunkSize_pos opts pos
  obtain ⟨_, parts⟩ := chunk_count pos size_pos
  have few : lastChunk (opts.chunkSize n) n ≤ opts.chunkSize n := Nat.mod_lt _ size_pos
  have next : ((n - 1) / opts.chunkSize n + 1) * opts.chunkSize n =
      (n - 1) / opts.chunkSize n * opts.chunkSize n + opts.chunkSize n := Nat.succ_mul _ _
  have all : min (((n - 1) / opts.chunkSize n + 1) * opts.chunkSize n) n = n := by omega
  unfold kvAfter
  cases batched : opts.batchedAttn with
  | false => rfl
  | true =>
    rw [if_pos rfl]
    rcases safe batched with fits | full
    · rw [copied_fits order layer _ _ fits fun a lt => chunk_inside pos lt, all]
    · rw [copied_full order layer _ _ (by rw [all, ← full]; exact parts), ← full, ← parts]

lemma prefillLayer_eq (opts : PrefillOptions) (pos : 0 < n) (order : CopyOrder cfg.windowSize) (layer : Nat)
    (l : Layer X K) (x : Nat → X) (s : LayerState K) :
    (prefillLayer cfg opts order layer l s ((List.range n).map x)).1.cache = { s.cache with
      kv := kvAfter cfg opts order layer (fun p => l.kvRow (x p) p) s.cache.kv n } ∧
    (prefillLayer cfg opts order layer l s ((List.range n).map x)).1.reads = (fun p =>
      if p < n then (windowRows cfg.windowSize (fun p => l.kvRow (x p) p) p : Multiset (Row K))
      else s.reads p) ∧
    (prefillLayer cfg opts order layer l s ((List.range n).map x)).2 = (List.range n).map fun p =>
      l.block (x p) p (windowRows cfg.windowSize (fun p => l.kvRow (x p) p) p) := by
  have size_pos := chunkSize_pos opts pos
  obtain ⟨count, parts⟩ := chunk_count pos size_pos
  have inside : ∀ a, a < (n - 1) / opts.chunkSize n + 1 → a * opts.chunkSize n < n :=
    fun a lt => chunk_inside pos lt
  have few : lastChunk (opts.chunkSize n) n ≤ opts.chunkSize n := Nat.mod_lt _ size_pos
  have next : ((n - 1) / opts.chunkSize n + 1) * opts.chunkSize n =
      (n - 1) / opts.chunkSize n * opts.chunkSize n + opts.chunkSize n := Nat.succ_mul _ _
  have all : min (((n - 1) / opts.chunkSize n + 1) * opts.chunkSize n) n = n := by omega
  simp only [prefillLayer, List.length_map, List.length_range, count, kvAfter]
  cases batched : opts.batchedAttn with
  | false =>
    have tokens := prefillChunks_tokens (l := l) (s := s) batched order layer x inside
    rw [all] at tokens
    exact ⟨tokens.cache, tokens.reads, tokens.out⟩
  | true =>
    obtain ⟨cache, reads, _, out⟩ :=
      prefillChunks_batched (l := l) (s := s) batched order layer x inside
    rw [all] at reads out
    exact ⟨cache, reads, out⟩

lemma prefillLayer_quiet [Field K] [LinearOrder K] (expo : K → K) (safe : SafeCopy cfg opts n)
    (pos : 0 < n) (quiet : QuietLayer l.toLayerConfig n) (order : CopyOrder cfg.windowSize)
    (layer : Nat) (xs : List X) (len : xs.length = n) (s : LayerState K) :
    Same (prefillLayer cfg opts order layer l s xs).1 (stage (decodeLayer cfg expo) l s 0 xs).1 ∧
      (prefillLayer cfg opts order layer l s xs).2 = (stage (decodeLayer cfg expo) l s 0 xs).2 := by
  obtain ⟨x, tabulated⟩ := exists_map_range (List.ne_nil_of_length_pos (len ▸ pos))
  rw [len] at tabulated
  subst tabulated
  obtain ⟨cache, reads, out⟩ := prefillLayer_eq opts pos order layer l x s
  rw [kvAfter_safe safe pos] at cache
  exact Windowed.agree ⟨cache, reads, out⟩ (quiet_stage quiet x s)

lemma length_prefillLayer (pos : 0 < n) (order : CopyOrder cfg.windowSize) (layer : Nat)
    (l : Layer X K) {xs : List X} (len : xs.length = n) (s : LayerState K) :
    (prefillLayer cfg opts order layer l s xs).2.length = n := by
  obtain ⟨x, tabulated⟩ := exists_map_range (List.ne_nil_of_length_pos (len ▸ pos))
  rw [len] at tabulated
  rw [tabulated, (prefillLayer_eq opts pos order layer l x s).2.2]
  simp

lemma length_prefillStack (pos : 0 < n) (order : CopyOrder cfg.windowSize) (layer : Nat)
    (session : Session X K) {xs : List X} (len : xs.length = n) :
    (prefillStack cfg opts order layer session xs).2.length = n := by
  induction session generalizing layer xs with
  | nil => exact len
  | cons slot rest ih => exact ih (layer + 1) (length_prefillLayer pos order layer _ len _)

lemma prefill_eq (e : PersistentEngine T X K) (order : CopyOrder e.config.windowSize)
    (session : Session X K) {tokens : List T} (pos : 0 < tokens.length) : ∃ first,
      e.prefill order session tokens =
        some ((prefillStack e.config e.options order 0 session (tokens.map e.embed)).1, first) := by
  have len : (prefillStack e.config e.options order 0 session (tokens.map e.embed)).2.length =
      tokens.length := length_prefillStack pos order 0 session (List.length_map _)
  have ne := List.ne_nil_of_length_pos (len ▸ pos)
  refine ⟨e.select (List.getLast _ ne), ?_⟩
  simp only [PersistentEngine.prefill, List.getLast?_eq_some_getLast ne, Option.map_some]

end Streams

end PocketMoE.Engine
