import PocketMoE.Engine.PrefillRefines

/-!
# The ring after a prompt

After prefill every slot of a layer's ring should hold the row of the newest position that has this
slot, whatever the order in which the blocks of a launch run. `newestRows_iff`: for all layers,
weights, prompts of `n` tokens and orders it does exactly when the copies are safe: the unbatched
path, chunks that fit the ring, or a last chunk as long as the ring. Otherwise two rows of one launch
have the same slot, and no later launch overwrites it (`oldest_row`).
-/

namespace PocketMoE.Engine
open PocketMoE.Lib PocketMoE.Ring PocketMoE.Tensor

variable {X K : Type}

/-- The newest of `n` positions that has this slot. -/
def Newest (w n slot p : Nat) : Prop :=
  p < n ∧ p % w = slot ∧ ∀ q, q < n → q % w = slot → q ≤ p

/-- The ring of a layer has the newest row of every slot that has one. -/
def NewestRows (cfg : EngineConfig) (slot : Layer X K × LayerState K) (xs : List X) : Prop :=
  ∀ r p x, Newest cfg.windowSize xs.length r p → xs[p]? = some x →
    slot.2.cache.kv r = slot.1.kvRow x p

section

variable (cfg : EngineConfig) (opts : PrefillOptions) (order : CopyOrder cfg.windowSize)

/-- The rows that go into each layer. -/
def layerInputs (layer : Nat) : Session X K → List X → List (List X)
  | [], _ => []
  | (l, s) :: rest, xs =>
    xs :: layerInputs (layer + 1) rest (prefillLayer cfg opts order layer l s xs).2

end

variable {cfg : EngineConfig} {opts : PrefillOptions} {n : Nat}

lemma newest_iff {w p : Nat} (hw : 0 < w) (lt : p < n) : Newest w n (p % w) p ↔ n ≤ p + w := by
  constructor
  · rintro ⟨-, -, newest⟩
    by_contra far
    have := newest (p + w) (by omega) (Nat.add_mod_right p w)
    omega
  · intro near
    refine ⟨lt, rfl, fun q inside same => ?_⟩
    by_contra more
    exact slot_ne (w := w) (p := p) (q := q) (by omega) (by omega) same.symm

lemma NewestRows.of_safe (safe : SafeCopy cfg opts n) (order : CopyOrder cfg.windowSize)
    (layer : Nat) (l : Layer X K) (s : LayerState K) {xs : List X} (len : xs.length = n) :
    NewestRows cfg (l, (prefillLayer cfg opts order layer l s xs).1) xs := by
  intro r p x newest here
  have pos : 0 < n := len ▸ Nat.lt_of_le_of_lt (Nat.zero_le p) newest.1
  obtain ⟨y, tabulated⟩ := exists_map_range (List.ne_nil_of_length_pos (len ▸ pos))
  rw [len] at tabulated newest
  obtain ⟨lt, rfl, -⟩ := id newest
  have value : x = y p := by
    rw [tabulated, List.getElem?_map, List.getElem?_range lt] at here
    exact (Option.some.inj here).symm
  rw [tabulated, (prefillLayer_eq opts pos order layer l y s).1, kvAfter_safe safe pos, value]
  exact ringAfter_holds (fun p => l.kvRow (y p) p) s.cache.kv n p (Nat.zero_le p) lt
    ((newest_iff cfg.windowSize_pos lt).mp newest)

/-- After a prompt, the rings of all layers have the newest rows of what went into the layer, for all
weights, prompts and orders. -/
def PrefillNewest (X K : Type) (cfg : EngineConfig) (opts : PrefillOptions) (n : Nat) : Prop :=
  ∀ (order : CopyOrder cfg.windowSize) (session : Session X K) (xs : List X), xs.length = n →
    List.Forall₂ (NewestRows cfg) (prefillStack cfg opts order 0 session xs).1
      (layerInputs cfg opts order 0 session xs)

lemma length_prefillLayer' (order : CopyOrder cfg.windowSize) (layer : Nat) (l : Layer X K)
    (s : LayerState K) {xs : List X} (len : xs.length = n) :
    (prefillLayer cfg opts order layer l s xs).2.length = n := by
  cases n with
  | zero =>
    obtain rfl := List.length_eq_zero_iff.mp len
    have none : opts.chunkSize 0 = 0 := Nat.le_zero.mp (chunkSize_le opts 0)
    simp [prefillLayer, none, prefillChunks]
  | succ n => exact length_prefillLayer (Nat.succ_pos n) order layer l len s

lemma newestRows_stack (safe : SafeCopy cfg opts n) (order : CopyOrder cfg.windowSize)
    (layer : Nat) (session : Session X K) {xs : List X} (len : xs.length = n) :
    List.Forall₂ (NewestRows cfg) (prefillStack cfg opts order layer session xs).1
      (layerInputs cfg opts order layer session xs) := by
  induction session generalizing layer xs with
  | nil => exact .nil
  | cons slot rest ih =>
    obtain ⟨l, s⟩ := slot
    exact .cons (NewestRows.of_safe safe order layer l s len)
      (ih (layer + 1) (length_prefillLayer' order layer l s len))

lemma PrefillNewest.safe [Field K] [LinearOrder K] [Inhabited X]
    (all : PrefillNewest X K cfg opts n) : SafeCopy cfg opts n := by
  rcases Nat.eq_zero_or_pos n with rfl | pos
  · exact fun _ => Or.inl ((chunkSize_le opts 0).trans (Nat.zero_le _))
  by_contra no
  obtain ⟨start, k, long, inside, near, left⟩ := kvAfter_unsafe (K := K) pos no
  let order := firstWins cfg.windowSize cfg.windowSize_pos
  let x : Nat → X := fun _ => default
  have rest : (k - 1) % cfg.windowSize < cfg.windowSize := Nat.mod_lt _ cfg.windowSize_pos
  -- the row of the older position is one, that of the newest one is zero
  let l : Layer X K := probe (start + (k - 1) % cfg.windowSize) windowLayer
  have last : start + (k - 1) < n := by omega
  have stack := all order [(l, blank)] ((List.range n).map x) (by simp)
  obtain ⟨here, -⟩ := List.forall₂_cons.mp stack
  have newest := (newest_iff cfg.windowSize_pos last).mpr (by omega)
  have shown := here _ (start + (k - 1)) default (by simpa using newest) (by simp [x, last])
  have kept := congrArg LayerCache.kv (prefillLayer_eq opts pos order 0 l x blank).1
  have older := (congrFun kept _).trans (left 0 (fun p => l.kvRow (x p) p) blank.cache.kv)
  have differ := congrFun (older.symm.trans shown) 0
  simp only [l, probe, if_true] at differ
  rw [if_neg (by omega)] at differ
  exact one_ne_zero differ

/-- Prefill of `n` tokens leaves the newest rows in the ring of every layer, for all weights and
every order of the blocks, exactly when the copies are safe. -/
theorem newestRows_iff (X K : Type) [Field K] [LinearOrder K] [Inhabited X] (cfg : EngineConfig)
    (opts : PrefillOptions) (n : Nat) : PrefillNewest X K cfg opts n ↔ SafeCopy cfg opts n :=
  ⟨PrefillNewest.safe, fun safe order session _ len => newestRows_stack safe order 0 session len⟩

/-- With the defaults and a window of 128, a prompt of 129 tokens: the row of position 0 can stay in
the slot of position 128. -/
theorem oldest_row : ¬ PrefillNewest Unit ℚ smallContext defaultOptions 129 := by
  intro all
  rcases all.safe rfl with fits | full
  · exact absurd fits (by decide)
  · exact absurd full (by decide)

end PocketMoE.Engine
