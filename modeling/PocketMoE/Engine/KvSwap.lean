import PocketMoE.Lib.SlotCache
import Mathlib.Tactic.Ring

/-!
# The KV swap of the GGUF engine

Model of `GgufKvSwapLayerState` and of what a layer of the GGUF engine does with its KV cache for a
decoded token (`gguf_kv_swap_*` and `gguf_layer_forward_attn_to_gate` in `dsv4_engine.cpp`). The
cache of a layer has the slots of the window ring and behind them slots for compressed chunks. With
the swap there are only `gpu_chunks` of these; all chunks are kept in host memory, and those that the
attention selects are brought in before it reads.

`R` is a row of the cache. The row of a token, the pooled chunk and the selection come with the token
(`GgufToken`); everything else is computed as the source does it. The same step runs with the swap and
without it, as in the source, where the state is a pointer that may be null.

`Consistent` is the invariant of the tables, `Mirrors` relates a layer with the swap to one that keeps
all chunks, `GgufToken.Selects` is what is asked of a selection. The headline is `GgufLayerConfig.swap_transparent`.
-/

namespace PocketMoE.Engine
open PocketMoE.Lib

/-- `GgufKvSwapLayerState`: the chunks in host memory, which of the slots holds which chunk, and the
slots in use, the most recent one first. `none` in `gpuSlotLogical` is the source's -1. -/
structure KvSwap (R : Type) where
  enabled : Bool
  compressedCap : Nat
  gpuChunks : Nat
  window : Nat
  hostCompressedKv : Nat → R
  hostReady : Nat → Bool
  gpuSlotLogical : Nat → Option Nat
  slotByLogical : Nat → Option Nat
  slotLru : List Nat

namespace KvSwap

variable {R : Type}

/-- `init`. The host memory is not cleared. -/
def init (host : Nat → R) (compressedCap gpuChunks kvDim window : Nat) : KvSwap R :=
  let enabled := decide (0 < compressedCap ∧ 0 < gpuChunks ∧ 0 < kvDim ∧ 0 < window)
  { enabled
    compressedCap := if enabled then compressedCap else 0
    gpuChunks := if enabled then min gpuChunks compressedCap else 0
    window := if enabled then window else 0
    hostCompressedKv := host
    hostReady := fun _ => false
    gpuSlotLogical := fun _ => none
    slotByLogical := fun _ => none
    slotLru := [] }

/-- `gguf_kv_swap_touch_slot`. -/
def touchSlot (st : KvSwap R) (slot : Nat) : KvSwap R :=
  { st with slotLru := slot :: st.slotLru.erase slot }

/-- The end of `gguf_kv_swap_acquire_slot`: the slot is the chunk's. -/
def assign (st : KvSwap R) (logical slot : Nat) : KvSwap R :=
  touchSlot
    { st with
      gpuSlotLogical := Function.update st.gpuSlotLogical slot (some logical)
      slotByLogical := Function.update st.slotByLogical logical (some slot) } slot

/-- Take the slot at the back of the list from its chunk. -/
def popBack (st : KvSwap R) (slot : Nat) : KvSwap R :=
  { st with
    slotLru := st.slotLru.dropLast
    slotByLogical := match st.gpuSlotLogical slot with
      | some oldLogical => Function.update st.slotByLogical oldLogical none
      | none => st.slotByLogical }

/-- `gguf_kv_swap_acquire_slot`. -/
def acquireSlot (st : KvSwap R) (logical : Nat) : Except String (KvSwap R × Nat) :=
  match st.slotByLogical logical with
  | some slot => .ok (st.touchSlot slot, slot)
  | none =>
    match (List.range st.gpuChunks).find? fun i => (st.gpuSlotLogical i).isNone with
    | some slot => .ok (st.assign logical slot, slot)
    | none =>
      match st.slotLru.getLast? with
      | none => .error "GGUF KV swap LRU empty"
      | some slot => .ok ((st.popBack slot).assign logical slot, slot)

/-- `gguf_kv_swap_stage_new_chunk`: the cache slot for a new chunk, `none` for -1. -/
def stageNewChunk (st? : Option (KvSwap R)) (logical fallbackSlot : Nat) :
    Except String (Option (KvSwap R) × Option Nat) :=
  match st? with
  | none => .ok (none, some fallbackSlot)
  | some st =>
    if st.enabled then
      if logical < st.compressedCap then
        match st.acquireSlot logical with
        | .ok (st, physical) => .ok (some st, some (st.window + physical))
        | .error e => .error e
      else .ok (some st, none)
    else .ok (some st, some fallbackSlot)

/-- `gguf_kv_swap_store_chunk`: copy a new chunk to host memory. -/
def storeChunk (st? : Option (KvSwap R)) (row : R) (logical : Nat) : Option (KvSwap R) :=
  st?.map fun st =>
    if st.enabled ∧ logical < st.compressedCap then
      { st with
        hostCompressedKv := Function.update st.hostCompressedKv logical row
        hostReady := Function.update st.hostReady logical true }
    else st

/-- The copies to the device that the copy stream has queued: the slot and the row. -/
abbrev Queue (R : Type) := List (Nat × R)

/-- The queued copies are done in their order. -/
def drain (queue : Queue R) (kv : Nat → R) : Nat → R :=
  queue.foldl (fun kv copy => Function.update kv copy.1 copy.2) kv

/-- A stored chunk gets a slot. If it was not on the device, its row is copied there, at once or by
the copy stream. -/
def bringIn (asyncH2d : Bool) (st : KvSwap R) (kv : Nat → R) (queue : Queue R) (logical : Nat) :
    Except String (KvSwap R × (Nat → R) × Queue R × Nat) :=
  match st.slotByLogical logical with
  | some physical => .ok (st.touchSlot physical, kv, queue, physical)
  | none =>
    match st.acquireSlot logical with
    | .error e => .error e
    | .ok (st, physical) =>
      let slot := st.window + physical
      let row := st.hostCompressedKv logical
      if asyncH2d then .ok (st, kv, queue ++ [(slot, row)], physical)
      else .ok (st, Function.update kv slot row, queue, physical)

/-- The loop of `gguf_kv_swap_in_selected`: the state, the cache, the queued copies and the rewritten
indices. -/
def swapIn (asyncH2d : Bool) (st : KvSwap R) (kv : Nat → R) (queue : Queue R) :
    List Int → Except String (KvSwap R × (Nat → R) × Queue R × List Int)
  | [] => .ok (st, kv, queue, [])
  | index :: rest =>
    let logical := index - st.window
    if logical < 0 ∨ st.compressedCap ≤ logical then
      .error "GGUF KV swap selected chunk out of range"
    else if !st.hostReady logical.toNat then
      .error "GGUF KV swap selected chunk before it was stored"
    else
      match bringIn asyncH2d st kv queue logical.toNat with
      | .error e => .error e
      | .ok (st, kv, queue, physical) =>
        match swapIn asyncH2d st kv queue rest with
        | .error e => .error e
        | .ok (st', kv, queue, indices) =>
          .ok (st', kv, queue, ((st.window + physical : Nat) : Int) :: indices)

/-- `gguf_kv_swap_in_selected`: bring the selected chunks in, and rewrite their indices. The queued
copies are done when the default stream has waited for the stage event. -/
def swapInSelected (st? : Option (KvSwap R)) (kv : Nat → R) (kvIndices : List Int)
    (windowLen extraCount : Nat) (copyStream asyncH2d : Bool) :
    Except String (Option (KvSwap R) × (Nat → R) × List Int) :=
  match st? with
  | none => .ok (none, kv, kvIndices)
  | some st =>
    if !st.enabled ∨ extraCount = 0 then .ok (some st, kv, kvIndices)
    else if st.gpuChunks < extraCount then
      .error "GGUF KV swap selected more chunks than GPU staging capacity"
    else if asyncH2d ∧ !copyStream then
      .error "GGUF KV swap async H2D requested without copy stream/event"
    else
      match swapIn asyncH2d st kv [] ((kvIndices.drop windowLen).take extraCount) with
      | .error e => .error e
      | .ok (st, kv, queue, indices) =>
        .ok (some st, drain queue kv,
          kvIndices.take windowLen ++ indices ++ kvIndices.drop (windowLen + extraCount))

/-! ## The tables -/

/-- The tables agree: the slots in use are listed once each, and every one has its own chunk. -/
structure Consistent (st : KvSwap R) : Prop where
  injective : ∀ g h s, st.slotByLogical g = some s → st.slotByLogical h = some s → g = h
  inverse : ∀ g s, st.slotByLogical g = some s ↔ st.gpuSlotLogical s = some g
  nodup : st.slotLru.Nodup
  occupied : ∀ s, s ∈ st.slotLru ↔ st.gpuSlotLogical s ≠ none
  inside : ∀ s ∈ st.slotLru, s < st.gpuChunks

/-- The tables as slots that are handed out by recency. -/
def toCache (st : KvSwap R) : SlotCache Nat where
  capacity := st.gpuChunks
  slotOf := st.slotByLogical
  keyAt := st.gpuSlotLogical
  lru := st.slotLru.reverse

/-- The state with other tables. -/
def withTables (st : KvSwap R) (c : SlotCache Nat) : KvSwap R :=
  { st with gpuSlotLogical := c.keyAt, slotByLogical := c.slotOf, slotLru := c.lru.reverse }

variable {st : KvSwap R}

@[simp] lemma withTables_toCache : st.withTables st.toCache = st := by
  simp [withTables, toCache]

@[simp] lemma withTables_withTables (c d : SlotCache Nat) :
    (st.withTables c).withTables d = st.withTables d := rfl

lemma toCache_withTables {c : SlotCache Nat} (same : c.capacity = st.gpuChunks) :
    (st.withTables c).toCache = c := by
  simp [withTables, toCache, ← same]

lemma Consistent.wf (ok : st.Consistent) : st.toCache.Wf where
  nodup := List.nodup_reverse.mpr ok.nodup
  inside s member := ok.inside s (List.mem_reverse.mp member)
  used s := List.mem_reverse.trans (ok.occupied s)
  inverse := ok.inverse

lemma Consistent.of_wf (wf : st.toCache.Wf) : st.Consistent where
  injective g h s has has' := Option.some.inj
    (((wf.inverse g s).mp has).symm.trans ((wf.inverse h s).mp has'))
  inverse := wf.inverse
  nodup := List.nodup_reverse.mp wf.nodup
  occupied s := List.mem_reverse.symm.trans (wf.used s)
  inside s member := wf.inside s (List.mem_reverse.mpr member)

lemma touchSlot_eq (nodup : st.slotLru.Nodup) (slot : Nat) :
    st.touchSlot slot = st.withTables { st.toCache with
      lru := st.toCache.lru.erase slot ++ [slot] } := by
  have back : (st.slotLru.reverse.erase slot).reverse = st.slotLru.erase slot := by
    rw [(List.nodup_reverse.mpr nodup).erase_eq_filter, nodup.erase_eq_filter, List.filter_reverse,
      List.reverse_reverse]
  simp [touchSlot, withTables, toCache, back]

lemma assign_eq {slot : Nat} (new : slot ∉ st.slotLru) (logical : Nat) :
    st.assign logical slot = st.withTables (st.toCache.place slot logical) := by
  simp [assign, touchSlot, withTables, toCache, SlotCache.place, List.erase_of_not_mem new]

lemma acquireSlot_eq (ok : st.Consistent) (pos : 0 < st.gpuChunks) (logical : Nat) :
    st.acquireSlot logical =
      .ok (st.withTables (st.toCache.acquire logical).1, (st.toCache.acquire logical).2.1) := by
  have wf := ok.wf
  have slotOf : st.toCache.slotOf = st.slotByLogical := rfl
  unfold acquireSlot SlotCache.acquire
  rw [slotOf]
  cases has : st.slotByLogical logical with
  | some slot =>
    simp only [touchSlot_eq ok.nodup]
    rfl
  | none =>
    by_cases room : st.toCache.lru.length < st.toCache.capacity
    · obtain ⟨slot, search, _, free⟩ := wf.exists_empty room
      have search' : (List.range st.gpuChunks).find? (fun i => (st.gpuSlotLogical i).isNone) =
        some slot := search
      have new : slot ∉ st.slotLru := fun member => (ok.occupied slot).mp member free
      simp only [if_pos room, search, search', Option.getD_some, assign_eq new]
    · have full : (List.range st.gpuChunks).find? (fun i => (st.gpuSlotLogical i).isNone) = none :=
        wf.none_empty (Nat.le_of_not_lt room)
      simp only [if_neg room, full]
      cases lru : st.toCache.lru with
      | nil =>
        rw [lru] at room
        exact absurd pos room
      | cons slot rest =>
        -- the back of the source's list is the head of the library's
        have listed : st.slotLru = rest.reverse ++ [slot] := by
          rw [← List.reverse_reverse st.slotLru]
          exact (congrArg List.reverse lru).trans List.reverse_cons
        have last : st.slotLru.getLast? = some slot := by rw [listed, List.getLast?_concat]
        have front : st.slotLru.dropLast = rest.reverse := by rw [listed, List.dropLast_concat]
        have new : slot ∉ (st.popBack slot).slotLru := by
          have nodup := ok.nodup
          rw [listed, List.nodup_append'] at nodup
          rw [popBack, front]
          exact fun member => nodup.2.2 member (List.mem_singleton_self slot)
        have evicted : (st.popBack slot).toCache = st.toCache.evict slot rest := by
          simp only [popBack, toCache, SlotCache.evict, front, List.reverse_reverse]
          cases st.gpuSlotLogical slot with
          | none => rfl
          | some old => rfl
        simp only [last, assign_eq new, evicted]
        rfl

/-! ## What the slots hold -/

/-- A chunk on the device is a stored one, and its slot has the stored row. -/
def Holds (st : KvSwap R) (kv : Nat → R) : Prop :=
  ∀ slot g, st.gpuSlotLogical slot = some g →
    st.hostReady g = true ∧ kv (st.window + slot) = st.hostCompressedKv g

lemma drain_append (queue : Queue R) (slot : Nat) (row : R) (kv : Nat → R) :
    drain (queue ++ [(slot, row)]) kv = Function.update (drain queue kv) slot row := by
  simp [drain]

lemma bringIn_eq {asyncH2d : Bool} {kv : Nat → R} {queue : Queue R} {g : Nat}
    (ok : st.Consistent) (pos : 0 < st.gpuChunks) (holds : st.Holds (drain queue kv))
    (sync : asyncH2d = false → queue = []) :
    ∃ kv' queue', bringIn asyncH2d st kv queue g =
        .ok (st.withTables (st.toCache.acquire g).1, kv', queue', (st.toCache.acquire g).2.1) ∧
      drain queue' kv' = Function.update (drain queue kv)
        (st.window + (st.toCache.acquire g).2.1) (st.hostCompressedKv g) ∧
      (asyncH2d = false → queue' = []) := by
  unfold bringIn
  cases has : st.slotByLogical g with
  | some slot =>
    -- the chunk's slot has its row already
    have hit : st.toCache.acquire g =
        ({ st.toCache with lru := st.toCache.lru.erase slot ++ [slot] }, slot, true) := by
      have slotOf : st.toCache.slotOf g = some slot := has
      simp only [SlotCache.acquire, slotOf]
    rw [hit]
    refine ⟨kv, queue, by simp only [touchSlot_eq ok.nodup], ?_, sync⟩
    rw [← (holds slot g ((ok.inverse g slot).mp has)).2, Function.update_eq_self]
  | none =>
    simp only [acquireSlot_eq ok pos]
    cases asyncH2d with
    | true => exact ⟨kv, _, rfl, drain_append .., by simp⟩
    | false =>
      obtain rfl := sync rfl
      exact ⟨_, [], rfl, rfl, fun _ => rfl⟩

lemma Holds.acquire {kv : Nat → R} {g : Nat} (ok : st.Consistent) (pos : 0 < st.gpuChunks)
    (holds : st.Holds kv) (ready : st.hostReady g = true) :
    (st.withTables (st.toCache.acquire g).1).Holds
      (Function.update kv (st.window + (st.toCache.acquire g).2.1) (st.hostCompressedKv g)) := by
  intro slot h has
  have acq := ok.wf.acquire pos g
  have has : (st.toCache.acquire g).1.keyAt slot = some h := has
  rw [acq.keyAt, Function.update_apply] at has
  by_cases here : slot = (st.toCache.acquire g).2.1
  · rw [if_pos here, Option.some.injEq] at has
    subst has here
    exact ⟨ready, Function.update_self ..⟩
  · rw [if_neg here] at has
    obtain ⟨stored, row⟩ := holds slot h has
    have other : st.window + slot ≠ st.window + (st.toCache.acquire g).2.1 := by omega
    exact ⟨stored, (Function.update_of_ne other ..).trans row⟩

/-- The state after a chunk was copied to host memory. -/
def withStored (st : KvSwap R) (g : Nat) (row : R) : KvSwap R :=
  { st with
    hostCompressedKv := Function.update st.hostCompressedKv g row
    hostReady := Function.update st.hostReady g true }

lemma stageNewChunk_eq (ok : st.Consistent) (pos : 0 < st.gpuChunks) (enabled : st.enabled = true)
    {g : Nat} (inside : g < st.compressedCap) (fallbackSlot : Nat) :
    stageNewChunk (some st) g fallbackSlot =
      .ok (some (st.withTables (st.toCache.acquire g).1),
        some (st.window + (st.toCache.acquire g).2.1)) := by
  simp only [stageNewChunk, enabled, inside, if_true, acquireSlot_eq ok pos]
  rfl

lemma Holds.store {kv : Nat → R} {g : Nat} (ok : st.Consistent) (pos : 0 < st.gpuChunks)
    (holds : st.Holds kv) (row : R) :
    ((st.withTables (st.toCache.acquire g).1).withStored g row).Holds
      (Function.update kv (st.window + (st.toCache.acquire g).2.1) row) := by
  intro slot h has
  have acq := ok.wf.acquire pos g
  have has : (st.toCache.acquire g).1.keyAt slot = some h := has
  by_cases here : slot = (st.toCache.acquire g).2.1
  · have key : (st.toCache.acquire g).1.keyAt slot = some g := by
      rw [acq.keyAt, here, Function.update_self]
    obtain rfl : g = h := Option.some.inj (key.symm.trans has)
    subst here
    have stored : ((st.withTables (st.toCache.acquire g).1).withStored g row).hostCompressedKv g =
      row := Function.update_self ..
    exact ⟨Function.update_self .., (Function.update_self ..).trans stored.symm⟩
  · -- the chunk of another slot is another one
    have other : h ≠ g := by
      rintro rfl
      have slot_g := (acq.wf.inverse h slot).mpr has
      have given := (acq.wf.inverse h (st.toCache.acquire h).2.1).mpr
        (by rw [acq.keyAt, Function.update_self])
      exact here (Option.some.inj (slot_g.symm.trans given))
    rw [acq.keyAt, Function.update_of_ne here] at has
    obtain ⟨stored, kept⟩ := holds slot h has
    have apart : st.window + slot ≠ st.window + (st.toCache.acquire g).2.1 := by omega
    exact ⟨(Function.update_of_ne other ..).trans stored, (Function.update_of_ne apart ..).trans
      (kept.trans (Function.update_of_ne other ..).symm)⟩

lemma swapIn_eq {asyncH2d : Bool} (chunks : List Nat) {st : KvSwap R} {kv : Nat → R}
    {queue : Queue R} (ok : st.Consistent) (pos : 0 < st.gpuChunks)
    (holds : st.Holds (drain queue kv)) (sync : asyncH2d = false → queue = [])
    (stored : ∀ g ∈ chunks, g < st.compressedCap ∧ st.hostReady g = true) :
    ∃ kv' queue', swapIn asyncH2d st kv queue
        (chunks.map fun g => ((st.window + g : Nat) : Int)) =
          .ok (st.withTables (st.toCache.acquireAll chunks).1, kv', queue',
            (st.toCache.acquireAll chunks).2.map fun s => ((st.window + s : Nat) : Int)) ∧
      (st.withTables (st.toCache.acquireAll chunks).1).Holds (drain queue' kv') ∧
      ∀ s < st.window, drain queue' kv' s = drain queue kv s := by
  induction chunks generalizing st kv queue with
  | nil => exact ⟨kv, queue, by simp [swapIn, SlotCache.acquireAll], by simpa [SlotCache.acquireAll],
      fun _ _ => rfl⟩
  | cons g rest ih =>
    obtain ⟨inside, ready⟩ := stored g List.mem_cons_self
    obtain ⟨kv₁, queue₁, brought, drained, sync₁⟩ := bringIn_eq (g := g) ok pos holds sync
    have acq := ok.wf.acquire pos g
    have tables : (st.withTables (st.toCache.acquire g).1).toCache = (st.toCache.acquire g).1 :=
      toCache_withTables acq.capacity
    obtain ⟨kv₂, queue₂, rewritten, holds₂, ring⟩ := @ih (st.withTables (st.toCache.acquire g).1) _ _
      (.of_wf (by rw [tables]; exact acq.wf)) pos (by rw [drained]; exact holds.acquire ok pos ready)
      sync₁ fun h member => stored h (List.mem_cons_of_mem g member)
    rw [tables, withTables_withTables] at rewritten holds₂
    refine ⟨kv₂, queue₂, ?_, holds₂, fun s small => ?_⟩
    · have chunk : ((st.window + g : Nat) : Int) - st.window = g := by push_cast; ring
      have range : ¬ ((g : Int) < 0 ∨ (st.compressedCap : Int) ≤ g) := by omega
      simp only [List.map_cons, swapIn, chunk, if_neg range, Int.toNat_natCast, ready, Bool.not_true,
        Bool.false_eq_true, if_false, brought]
      have same : (st.withTables (st.toCache.acquire g).1).window = st.window := rfl
      rw [same] at rewritten
      rw [rewritten, SlotCache.acquireAll_cons]
      rfl
    · rw [ring s small, drained, Function.update_of_ne (by omega)]

end KvSwap

/-! ## A layer -/

/-- What is configured for a layer. A chunk is the pooled row of `ratio` tokens; up to `threshold`
positions the attention is dense. -/
structure GgufLayerConfig where
  window : Nat
  ratio : Nat
  threshold : Nat
  compressedCap : Nat
  gpuChunks : Nat
  kvDim : Nat
  asyncH2d : Bool
  window_pos : 0 < window
  ratio_pos : 0 < ratio
  threshold_le : threshold ≤ window
  compressedCap_pos : 0 < compressedCap
  gpuChunks_pos : 0 < gpuChunks
  kvDim_pos : 0 < kvDim

/-- A decoded token in a layer: its position, its row, the pooled chunk if it completes one, and the
chunks that the indexer selects for it. -/
structure GgufToken (R : Type) where
  position : Nat
  row : R
  pooled : R
  selected : List Nat

/-- The KV cache of a layer. -/
structure GgufLayer (R : Type) where
  kv : Nat → R
  capacity : Nat
  swap : Option (KvSwap R)

namespace GgufLayerConfig

variable {R : Type} (cfg : GgufLayerConfig)

/-- A cleared cache with the swap: `gpuChunks` slots behind the ring. -/
def swapped (zero : R) (host : Nat → R) : GgufLayer R where
  kv := fun _ => zero
  capacity := max 1 (cfg.window + cfg.gpuChunks)
  swap := some (.init host cfg.compressedCap cfg.gpuChunks cfg.kvDim cfg.window)

/-- A cleared cache without the swap: a slot for every chunk. -/
def resident (zero : R) : GgufLayer R where
  kv := fun _ => zero
  capacity := max 1 (cfg.window + max 1 cfg.compressedCap)
  swap := none

/-- A token that ends a group: its chunk is pooled into a slot of the cache, and stored. -/
def storeCell (s : GgufLayer R) (t : GgufToken R) : Except String (GgufLayer R) :=
  if (t.position + 1) % cfg.ratio = 0 then
    let logical := t.position / cfg.ratio
    match KvSwap.stageNewChunk s.swap logical (cfg.window + logical) with
    | .error e => .error e
    | .ok (swap, some slot) =>
      if slot < s.capacity then
        let kv := Function.update s.kv slot t.pooled
        .ok { s with kv, swap := KvSwap.storeChunk swap (kv slot) logical }
      else .ok { s with swap }
    | .ok (swap, none) => .ok { s with swap }
  else .ok s

/-- `use_sparse_attention`. -/
def sparse (position : Nat) : Prop := cfg.threshold = 0 ∨ cfg.threshold < position + 1

instance (position : Nat) : Decidable (cfg.sparse position) := by
  unfold sparse
  infer_instance

/-- The slots of the window of a position (`build_decode_kv_indices_kernel`). -/
def windowIndices (position : Nat) : List Int :=
  let len := min (position + 1) cfg.window
  (List.range len).map fun i => (((position + 1 - len + i) % cfg.window : Nat) : Int)

/-- The row of a token goes to the cache, and the selected chunks are brought in; the slots that the
attention reads then. -/
def prepare (s : GgufLayer R) (t : GgufToken R) : Except String (GgufLayer R × List Int) :=
  if cfg.sparse t.position then
    if s.capacity ≤ cfg.window then .error "invalid GGUF sparse KV cache capacity"
    else
      let kv := Function.update s.kv (t.position % cfg.window) t.row
      let windowLen := min (t.position + 1) cfg.window
      let kvIndices := cfg.windowIndices t.position ++
        t.selected.map fun chunk => ((cfg.window + chunk : Nat) : Int)
      -- the stream and its event exist when copies are asynchronous
      match KvSwap.swapInSelected s.swap kv kvIndices windowLen t.selected.length cfg.asyncH2d
          cfg.asyncH2d with
      | .error e => .error e
      | .ok (swap, kv, kvIndices) => .ok ({ s with kv, swap }, kvIndices)
  else if t.position < s.capacity then
    .ok ({ s with kv := Function.update s.kv t.position t.row },
      (List.range (t.position + 1)).map Int.ofNat)
  else .error "position out of KV cache capacity"

/-- The cells that the attention reads; it skips negative indices. -/
def reads (kv : Nat → R) (indices : List Int) : List R :=
  indices.filterMap fun i => if i < 0 then none else some (kv i.toNat)

/-- A decoded token in a layer: the cache after it, and the slots that the attention reads. -/
def step (s : GgufLayer R) (t : GgufToken R) : Except String (GgufLayer R × List Int) :=
  match cfg.storeCell s t with
  | .error e => .error e
  | .ok s => cfg.prepare s t

/-- A run of tokens: the cache, and for every token the cells it has read. -/
def run (s : GgufLayer R) : List (GgufToken R) → Except String (GgufLayer R × List (List R))
  | [] => .ok (s, [])
  | t :: rest =>
    match cfg.step s t with
    | .error e => .error e
    | .ok (s, indices) =>
      match run s rest with
      | .error e => .error e
      | .ok (s', cells) => .ok (s', reads s.kv indices :: cells)

/-! ## What a selection may be -/

/-- A token of the run has completed and stored this chunk. -/
def Stored (past : List (GgufToken R)) (g : Nat) : Prop :=
  g < cfg.compressedCap ∧
    ∃ t ∈ past, (t.position + 1) % cfg.ratio = 0 ∧ t.position / cfg.ratio = g

instance (past : List (GgufToken R)) (g : Nat) : Decidable (cfg.Stored past g) := by
  unfold Stored
  infer_instance

/-- The selection of a token: different chunks, stored by the run so far, no more of them than there
are slots. -/
def Selects (past : List (GgufToken R)) (t : GgufToken R) : Prop :=
  cfg.sparse t.position →
    t.selected.Nodup ∧ t.selected.length ≤ min cfg.gpuChunks cfg.compressedCap ∧
      ∀ g ∈ t.selected, cfg.Stored (past ++ [t]) g

instance (past : List (GgufToken R)) (t : GgufToken R) : Decidable (cfg.Selects past t) := by
  unfold Selects
  infer_instance

/-- Every token of a run selects such chunks. -/
def Valid (past : List (GgufToken R)) : List (GgufToken R) → Prop
  | [] => True
  | t :: rest => cfg.Selects past t ∧ Valid (past ++ [t]) rest

/-- A layer with the swap holds what a layer without it does: the same ring, in host memory the same
chunks, and in its slots some of these. -/
structure Mirrors (past : List (GgufToken R)) (st : KvSwap R) (kv plain : Nat → R) : Prop where
  enabled : st.enabled = true
  window : st.window = cfg.window
  compressedCap : st.compressedCap = cfg.compressedCap
  gpuChunks : st.gpuChunks = min cfg.gpuChunks cfg.compressedCap
  consistent : st.Consistent
  holds : st.Holds kv
  ring : ∀ s < cfg.window, kv s = plain s
  host : ∀ g, st.hostReady g = true → st.hostCompressedKv g = plain (cfg.window + g)
  stored : ∀ g, st.hostReady g = true ↔ cfg.Stored past g

variable {cfg} {past : List (GgufToken R)} {st : KvSwap R} {kv plain : Nat → R} {t : GgufToken R}

/-- The cache of a layer with the swap. -/
def withSwap (cfg : GgufLayerConfig) (kv : Nat → R) (st : KvSwap R) : GgufLayer R :=
  ⟨kv, max 1 (cfg.window + cfg.gpuChunks), some st⟩

/-- The cache of a layer that keeps all chunks. -/
def withoutSwap (cfg : GgufLayerConfig) (kv : Nat → R) : GgufLayer R :=
  ⟨kv, max 1 (cfg.window + max 1 cfg.compressedCap), none⟩

lemma Mirrors.gpuChunks_pos (same : cfg.Mirrors past st kv plain) : 0 < st.gpuChunks := by
  have := cfg.gpuChunks_pos
  have := cfg.compressedCap_pos
  rw [same.gpuChunks]
  omega

lemma Mirrors.start (cfg : GgufLayerConfig) (zero : R) (host : Nat → R) :
    ∃ st, cfg.swapped zero host = cfg.withSwap (fun _ => zero) st ∧
      cfg.Mirrors [] st (fun _ => zero) fun _ => zero := by
  have positive : 0 < cfg.compressedCap ∧ 0 < cfg.gpuChunks ∧ 0 < cfg.kvDim ∧ 0 < cfg.window :=
    ⟨cfg.compressedCap_pos, cfg.gpuChunks_pos, cfg.kvDim_pos, cfg.window_pos⟩
  refine ⟨_, rfl, ?_, ?_, ?_, ?_, ⟨?_, ?_, ?_, ?_, ?_⟩, ?_, fun _ _ => rfl, ?_, ?_⟩ <;>
    simp [KvSwap.init, positive, KvSwap.Holds, Stored]

lemma stored_append (g : Nat) : cfg.Stored (past ++ [t]) g ↔ cfg.Stored past g ∨
    g < cfg.compressedCap ∧ (t.position + 1) % cfg.ratio = 0 ∧ t.position / cfg.ratio = g := by
  simp only [Stored, List.mem_append, List.mem_singleton, or_and_right, exists_or, exists_eq_left,
    and_or_left]

lemma Mirrors.storeCell (same : cfg.Mirrors past st kv plain) :
    ∃ st' kv' plain', cfg.storeCell (cfg.withSwap kv st) t = .ok (cfg.withSwap kv' st') ∧
      cfg.storeCell (cfg.withoutSwap plain) t = .ok (cfg.withoutSwap plain') ∧
      cfg.Mirrors (past ++ [t]) st' kv' plain' := by
  have cap := cfg.compressedCap_pos
  have pos := same.gpuChunks_pos
  unfold GgufLayerConfig.storeCell
  by_cases ends : (t.position + 1) % cfg.ratio = 0
  · simp only [if_pos ends]
    by_cases inside : t.position / cfg.ratio < cfg.compressedCap
    · generalize logical : t.position / cfg.ratio = g at inside
      have inside' : g < st.compressedCap := same.compressedCap ▸ inside
      have acq := same.consistent.wf.acquire pos g
      have staged := KvSwap.stageNewChunk_eq same.consistent pos same.enabled inside'
        (cfg.window + g)
      have held := same.holds.store (g := g) same.consistent pos t.pooled
      generalize (st.toCache.acquire g).2.1 = slot at acq staged held
      generalize (st.toCache.acquire g).1 = c at acq staged held
      have slot_lt : slot < st.gpuChunks := by
        have := acq.wf.inside slot (by rw [acq.lru]; simp)
        rwa [acq.capacity] at this
      have fits : cfg.window + slot < max 1 (cfg.window + cfg.gpuChunks) := by
        rw [same.gpuChunks] at slot_lt
        omega
      have fits' : cfg.window + g < max 1 (cfg.window + max 1 cfg.compressedCap) := by omega
      have tables : ((st.withTables c).withStored g t.pooled).toCache = c :=
        KvSwap.toCache_withTables acq.capacity
      rw [same.window] at staged held
      refine ⟨(st.withTables c).withStored g t.pooled,
        Function.update kv (cfg.window + slot) t.pooled,
        Function.update plain (cfg.window + g) t.pooled, ?_, ?_, same.enabled, same.window,
        same.compressedCap, same.gpuChunks, .of_wf (by rw [tables]; exact acq.wf), held, ?_, ?_, ?_⟩
      · have stored : KvSwap.storeChunk (some (st.withTables c)) t.pooled g =
            some ((st.withTables c).withStored g t.pooled) :=
          congrArg some (if_pos ⟨same.enabled, inside'⟩)
        simp only [withSwap, staged, if_pos fits, Function.update_self, stored]
      · simp only [withoutSwap, KvSwap.stageNewChunk]
        exact (if_pos fits').trans rfl
      · intro s small
        rw [Function.update_of_ne (by omega), Function.update_of_ne (by omega)]
        exact same.ring s small
      · intro h ready
        simp only [KvSwap.withStored, KvSwap.withTables, Function.update_apply] at ready ⊢
        by_cases new : h = g
        · simp [new]
        · rw [if_neg new] at ready ⊢
          rw [if_neg (by omega)]
          exact same.host h ready
      · intro h
        rw [stored_append, ← same.stored, logical]
        simp only [KvSwap.withStored, KvSwap.withTables, Function.update_apply]
        by_cases new : h = g
        · simp [new, ends, inside]
        · simp [new, Ne.symm new]
    · have outside : ¬ t.position / cfg.ratio < st.compressedCap := same.compressedCap ▸ inside
      have full : ¬ cfg.window + t.position / cfg.ratio <
          max 1 (cfg.window + max 1 cfg.compressedCap) := by
        generalize t.position / cfg.ratio = g at inside
        omega
      refine ⟨st, kv, plain, ?_, ?_, { same with stored := fun g => ?_ }⟩
      · simp only [withSwap, KvSwap.stageNewChunk, same.enabled, outside, if_true, if_false]
      · simp only [withoutSwap, KvSwap.stageNewChunk]
        exact if_neg full
      · rw [same.stored, stored_append]
        have none : ¬ (g < cfg.compressedCap ∧ (t.position + 1) % cfg.ratio = 0 ∧
            t.position / cfg.ratio = g) := fun ⟨small, _, is⟩ => inside (is ▸ small)
        tauto
  · simp only [if_neg ends]
    refine ⟨st, kv, plain, rfl, rfl, { same with stored := fun g => ?_ }⟩
    rw [same.stored, stored_append]
    tauto

/-- The indices of a token's attention read the window, then the chunks that have these slots. -/
def chunkIndices (cfg : GgufLayerConfig) (t : GgufToken R) (slots : List Nat) : List Int :=
  cfg.windowIndices t.position ++ slots.map fun s => ((cfg.window + s : Nat) : Int)

/-- Selected chunks that are on the device together: each in a slot of its own, which holds the row
that was stored for it. -/
structure Resident (st : KvSwap R) (kv : Nat → R) (selected slots : List Nat) : Prop where
  distinct : slots.Nodup
  inside : ∀ s ∈ slots, s < st.gpuChunks
  chunk : List.Forall₂ (fun g s => st.gpuSlotLogical s = some g ∧
    kv (st.window + s) = st.hostCompressedKv g) selected slots

lemma length_windowIndices (position : Nat) :
    (cfg.windowIndices position).length = min (position + 1) cfg.window := by
  simp [windowIndices]

lemma reads_cast {ι : Type} (f : ι → Nat) (xs : List ι) :
    reads kv (xs.map fun x => (f x : Int)) = xs.map fun x => kv (f x) := by
  induction xs with
  | nil => rfl
  | cons x rest ih =>
    have nonneg : ¬ (f x : Int) < 0 := by omega
    rw [List.map_cons, reads, List.filterMap_cons_some (by rw [if_neg nonneg]), Int.toNat_natCast,
      List.map_cons, ← ih, reads]

lemma reads_append (is js : List Int) : reads kv (is ++ js) = reads kv is ++ reads kv js :=
  List.filterMap_append

lemma reads_window (ring : ∀ s < cfg.window, kv s = plain s) (position : Nat) :
    reads kv (cfg.windowIndices position) = reads plain (cfg.windowIndices position) := by
  simp only [windowIndices, reads_cast]
  exact List.map_congr_left fun i _ => ring _ (Nat.mod_lt _ cfg.window_pos)

lemma map_gpuSlotLogical {slots selected : List Nat}
    (tables : List.Forall₂ (fun g s => st.gpuSlotLogical s = some g) selected slots) :
    slots.map st.gpuSlotLogical = selected.map some := by
  induction tables with
  | nil => rfl
  | cons has _ ih => rw [List.map_cons, List.map_cons, has, ih]

lemma Resident.of_tables {slots selected : List Nat} (holds : st.Holds kv) (ok : st.Consistent)
    (nodup : selected.Nodup)
    (tables : List.Forall₂ (fun g s => st.gpuSlotLogical s = some g) selected slots) :
    Resident st kv selected slots where
  distinct := .of_map _ (map_gpuSlotLogical tables ▸ nodup.map (Option.some_injective _))
  inside s member := by
    have : st.gpuSlotLogical s ∈ selected.map some :=
      map_gpuSlotLogical tables ▸ List.mem_map_of_mem member
    obtain ⟨g, _, has⟩ := List.mem_map.mp this
    exact ok.inside s ((ok.occupied s).mpr (by simp [← has]))
  chunk := tables.imp fun g s has => ⟨has, (holds s g has).2⟩

lemma Mirrors.writeRow (same : cfg.Mirrors past st kv plain) {slot : Nat} (small : slot < cfg.window)
    (row : R) : cfg.Mirrors past st (Function.update kv slot row)
      (Function.update plain slot row) where
  enabled := same.enabled
  window := same.window
  compressedCap := same.compressedCap
  gpuChunks := same.gpuChunks
  consistent := same.consistent
  holds s g has := by
    have behind : st.window + s ≠ slot := by
      rw [same.window]
      omega
    obtain ⟨ready, held⟩ := same.holds s g has
    exact ⟨ready, (Function.update_of_ne behind ..).trans held⟩
  ring s inside := by
    simp only [Function.update_apply, same.ring s inside]
  host g ready := by
    rw [Function.update_of_ne (by omega)]
    exact same.host g ready
  stored := same.stored

lemma Mirrors.reads_chunks (same : cfg.Mirrors past st kv plain) {selected slots : List Nat}
    (resident : Resident st kv selected slots) (stored : ∀ g ∈ selected, cfg.Stored past g) :
    (slots.map fun s => kv (cfg.window + s)) = selected.map fun g => plain (cfg.window + g) := by
  have chunk := resident.chunk
  clear resident
  induction chunk with
  | nil => rfl
  | @cons g s _ _ here _ ih =>
    have first : kv (cfg.window + s) = plain (cfg.window + g) := by
      rw [← same.window, here.2, same.window]
      exact same.host g ((same.stored g).mpr (stored g List.mem_cons_self))
    rw [List.map_cons, List.map_cons, first,
      ih fun h member => stored h (List.mem_cons_of_mem g member)]

lemma Mirrors.swapInSelected (same : cfg.Mirrors past st kv plain) {selected : List Nat}
    (nodup : selected.Nodup) (few : selected.length ≤ min cfg.gpuChunks cfg.compressedCap)
    (stored : ∀ g ∈ selected, cfg.Stored past g) (front : List Int) :
    ∃ st' kv' slots, KvSwap.swapInSelected (some st) kv
        (front ++ selected.map fun g => ((cfg.window + g : Nat) : Int)) front.length selected.length
        cfg.asyncH2d cfg.asyncH2d =
          .ok (some st', kv', front ++ slots.map fun s => ((cfg.window + s : Nat) : Int)) ∧
      cfg.Mirrors past st' kv' plain ∧ Resident st' kv' selected slots := by
  cases selected with
  | nil =>
    exact ⟨st, kv, [], by simp [KvSwap.swapInSelected], same, List.nodup_nil, nofun, .nil⟩
  | cons first rest =>
    generalize whole : first :: rest = selected at nodup few stored
    have pos := same.gpuChunks_pos
    have nonempty : ¬ selected.length = 0 := by simp [← whole]
    have fits : ¬ st.gpuChunks < selected.length := by
      rw [same.gpuChunks]
      omega
    have ready : ∀ g ∈ selected, g < st.compressedCap ∧ st.hostReady g = true := fun g member =>
      ⟨same.compressedCap ▸ (stored g member).1, (same.stored g).mpr (stored g member)⟩
    have held : st.Holds (KvSwap.drain [] kv) := same.holds
    have sync : cfg.asyncH2d = false → ([] : KvSwap.Queue R) = [] := fun _ => rfl
    obtain ⟨kv', queue', rewritten, holds, ring⟩ :=
      KvSwap.swapIn_eq selected same.consistent pos held sync ready
    obtain ⟨wf, capacity⟩ := same.consistent.wf.acquireAll pos selected
    have given := same.consistent.wf.acquireAll_exact nodup (Nat.le_of_not_lt fits)
    have consistent : (st.withTables (st.toCache.acquireAll selected).1).Consistent :=
      .of_wf (by rw [KvSwap.toCache_withTables capacity]; exact wf)
    rw [same.window] at rewritten
    refine ⟨st.withTables (st.toCache.acquireAll selected).1, KvSwap.drain queue' kv',
      (st.toCache.acquireAll selected).2, ?_,
      ⟨same.enabled, same.window, same.compressedCap, same.gpuChunks, consistent, holds,
        fun s small => (ring s (same.window ▸ small)).trans (same.ring s small), same.host,
        same.stored⟩,
      .of_tables holds consistent nodup given⟩
    have all : ((selected.map fun g => ((cfg.window + g : Nat) : Int)).take selected.length) =
        selected.map fun g => ((cfg.window + g : Nat) : Int) := List.take_of_length_le (by simp)
    have streams : ¬ (cfg.asyncH2d = true ∧ (!cfg.asyncH2d) = true) := by simp
    simp only [KvSwap.swapInSelected, same.enabled, nonempty, if_neg fits, if_neg streams,
      List.drop_left, all, rewritten, Bool.not_true, Bool.false_eq_true, or_self, if_false]
    simp

lemma Mirrors.prepare (same : cfg.Mirrors (past ++ [t]) st kv plain) (selects : cfg.Selects past t) :
    ∃ st' kv' plain' indices indices',
      cfg.prepare (cfg.withSwap kv st) t = .ok (cfg.withSwap kv' st', indices) ∧
      cfg.prepare (cfg.withoutSwap plain) t = .ok (cfg.withoutSwap plain', indices') ∧
      cfg.Mirrors (past ++ [t]) st' kv' plain' ∧
      reads kv' indices = reads plain' indices' ∧
      (cfg.sparse t.position → ∃ slots, indices = cfg.chunkIndices t slots ∧
        Resident st' kv' t.selected slots) := by
  have chunks := cfg.gpuChunks_pos
  have cap := cfg.compressedCap_pos
  unfold GgufLayerConfig.prepare
  by_cases sparse : cfg.sparse t.position
  · obtain ⟨nodup, few, stored⟩ := selects sparse
    have small := Nat.mod_lt t.position cfg.window_pos
    obtain ⟨st', kv', slots, swapped, same', resident⟩ :=
      (same.writeRow small t.row).swapInSelected nodup few stored (cfg.windowIndices t.position)
    rw [length_windowIndices] at swapped
    have room : ¬ max 1 (cfg.window + cfg.gpuChunks) ≤ cfg.window := by omega
    have room' : ¬ max 1 (cfg.window + max 1 cfg.compressedCap) ≤ cfg.window := by omega
    refine ⟨st', kv', _, cfg.chunkIndices t slots, cfg.chunkIndices t t.selected, ?_, ?_, same', ?_,
      fun _ => ⟨slots, rfl, resident⟩⟩
    · simp only [withSwap, if_pos sparse, if_neg room, swapped]
      rfl
    · simp only [withoutSwap, if_pos sparse, KvSwap.swapInSelected]
      exact if_neg room'
    · rw [chunkIndices, chunkIndices, reads_append, reads_append, reads_window same'.ring,
        reads_cast, reads_cast, same'.reads_chunks resident stored]
  · have early : t.position < cfg.window := by
      have := cfg.threshold_le
      unfold GgufLayerConfig.sparse at sparse
      omega
    have room : t.position < max 1 (cfg.window + cfg.gpuChunks) := by omega
    have room' : t.position < max 1 (cfg.window + max 1 cfg.compressedCap) := by omega
    have same' := same.writeRow early t.row
    let seen := (List.range (t.position + 1)).map Int.ofNat
    refine ⟨st, Function.update kv t.position t.row, Function.update plain t.position t.row, seen, seen,
      ?_, ?_, same', ?_, fun h => absurd h sparse⟩
    · exact (if_neg sparse).trans (if_pos room)
    · exact (if_neg sparse).trans (if_pos room')
    · have cast (kv : Nat → R) : reads kv seen = (List.range (t.position + 1)).map kv :=
        reads_cast id _
      refine (cast _).trans (Eq.trans ?_ (cast _).symm)
      exact List.map_congr_left fun s member =>
        same'.ring s (Nat.lt_of_lt_of_le (List.mem_range.mp member) early)

lemma Mirrors.step (same : cfg.Mirrors past st kv plain) (selects : cfg.Selects past t) :
    ∃ st' kv' plain' indices indices',
      cfg.step (cfg.withSwap kv st) t = .ok (cfg.withSwap kv' st', indices) ∧
      cfg.step (cfg.withoutSwap plain) t = .ok (cfg.withoutSwap plain', indices') ∧
      cfg.Mirrors (past ++ [t]) st' kv' plain' ∧
      reads kv' indices = reads plain' indices' ∧
      (cfg.sparse t.position → ∃ slots, indices = cfg.chunkIndices t slots ∧
        Resident st' kv' t.selected slots) := by
  obtain ⟨st₁, kv₁, plain₁, stores, stores', same₁⟩ := same.storeCell (t := t)
  obtain ⟨st₂, kv₂, plain₂, is, is', reads, reads', rest⟩ := same₁.prepare selects
  exact ⟨st₂, kv₂, plain₂, is, is', by simp only [GgufLayerConfig.step, stores, reads],
    by simp only [GgufLayerConfig.step, stores', reads'], rest⟩

lemma Mirrors.run (tokens : List (GgufToken R)) {past : List (GgufToken R)} {st : KvSwap R}
    {kv plain : Nat → R} (same : cfg.Mirrors past st kv plain) (valid : cfg.Valid past tokens) :
    ∃ st' kv' plain' cells, cfg.run (cfg.withSwap kv st) tokens = .ok (cfg.withSwap kv' st', cells) ∧
      cfg.run (cfg.withoutSwap plain) tokens = .ok (cfg.withoutSwap plain', cells) ∧
      cfg.Mirrors (past ++ tokens) st' kv' plain' := by
  induction tokens generalizing past st kv plain with
  | nil => exact ⟨st, kv, plain, [], rfl, rfl, by simpa using same⟩
  | cons t rest ih =>
    obtain ⟨selects, valid⟩ := valid
    obtain ⟨st₁, kv₁, plain₁, is, is', steps, steps', same₁, reads, _⟩ := same.step selects
    obtain ⟨st₂, kv₂, plain₂, cells, runs, runs', same₂⟩ := ih same₁ valid
    rw [List.append_assoc] at same₂
    refine ⟨st₂, kv₂, plain₂, GgufLayerConfig.reads kv₁ is :: cells, ?_, ?_, same₂⟩
    · simp only [GgufLayerConfig.run, steps, runs]
      rfl
    · simp only [GgufLayerConfig.run, steps', runs']
      exact congrArg (fun c => Except.ok (_, c :: cells)) reads.symm

lemma valid_append {past tokens : List (GgufToken R)} :
    cfg.Valid past (tokens ++ [t]) ↔ cfg.Valid past tokens ∧ cfg.Selects (past ++ tokens) t := by
  induction tokens generalizing past with
  | nil => simp [Valid]
  | cons first rest ih =>
    simp only [List.cons_append, Valid, ih, List.append_assoc, and_assoc]
    rfl

/-- The swap is transparent. In a run whose tokens select stored chunks, no more of them at once than
there are slots, nothing is thrown; the tables agree; the chunks that a token selects are on the
device together, its indices point to them, and it reads the cells that it would read from a cache
with all chunks. -/
theorem swap_transparent (cfg : GgufLayerConfig) (zero : R) (host : Nat → R)
    (tokens : List (GgufToken R)) (t : GgufToken R) (valid : cfg.Valid [] (tokens ++ [t])) :
    ∃ swapped swapped' resident resident' cells indices indices' st,
      cfg.run (cfg.swapped zero host) tokens = .ok (swapped, cells) ∧
      cfg.run (cfg.resident zero) tokens = .ok (resident, cells) ∧
      cfg.step swapped t = .ok (swapped', indices) ∧
      cfg.step resident t = .ok (resident', indices') ∧
      reads swapped'.kv indices = reads resident'.kv indices' ∧
      swapped'.swap = some st ∧ st.Consistent ∧
      (∀ g, st.hostReady g = true → st.hostCompressedKv g = resident'.kv (cfg.window + g)) ∧
      (cfg.sparse t.position → ∃ slots, indices = cfg.chunkIndices t slots ∧
        Resident st swapped'.kv t.selected slots) := by
  obtain ⟨valid, selects⟩ := valid_append.mp valid
  obtain ⟨st₀, start, same₀⟩ := Mirrors.start cfg zero host
  obtain ⟨st₁, kv₁, plain₁, cells, runs, runs', same₁⟩ := same₀.run tokens valid
  obtain ⟨st₂, kv₂, plain₂, is, is', steps, steps', same₂, same, resident⟩ := same₁.step selects
  exact ⟨_, _, _, _, cells, is, is', st₂, start ▸ runs, runs', steps, steps', same, rfl,
    same₂.consistent, same₂.host, resident⟩

/-- Three tokens that are a chunk each share two slots: the third chunk evicts the second, which the
third token does not select. -/
theorem swap_transparent_three :
    let cfg : GgufLayerConfig :=
      ⟨1, 1, 0, 3, 2, 1, true, by decide, by decide, by decide, by decide, by decide, by decide⟩
    let token := fun position selected => GgufToken.mk position position (10 + position) selected
    ∃ swapped swapped' resident resident' cells indices indices' st,
      cfg.run (cfg.swapped 0 id) [token 0 [0], token 1 [1, 0]] = .ok (swapped, cells) ∧
      cfg.run (cfg.resident 0) [token 0 [0], token 1 [1, 0]] = .ok (resident, cells) ∧
      cfg.step swapped (token 2 [0, 2]) = .ok (swapped', indices) ∧
      cfg.step resident (token 2 [0, 2]) = .ok (resident', indices') ∧
      reads swapped'.kv indices = reads resident'.kv indices' ∧
      swapped'.swap = some st ∧ st.Consistent ∧
      (∀ g, st.hostReady g = true → st.hostCompressedKv g = resident'.kv (cfg.window + g)) ∧
      (cfg.sparse 2 → ∃ slots, indices = cfg.chunkIndices (token 2 [0, 2]) slots ∧
        Resident st swapped'.kv [0, 2] slots) := by
  intro cfg token
  exact swap_transparent cfg 0 id [token 0 [0], token 1 [1, 0]] (token 2 [0, 2])
    ⟨by decide, by decide, by decide, trivial⟩

end GgufLayerConfig

end PocketMoE.Engine
