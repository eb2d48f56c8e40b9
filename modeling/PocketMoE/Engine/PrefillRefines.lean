import Mathlib.Algebra.Field.Rat
import Mathlib.Algebra.Order.Ring.Unbundled.Rat
import PocketMoE.Engine.Prompt

/-!
# Prefill against decode

Prefill of a prompt, and the prompt fed token by token to decode: do they leave the same caches, and
do the attentions read the same rows? `prefillRefines_iff` says exactly when, for all weights,
prompts and block orders: every layer is quiet for the prompt, and the copies into the ring are
safe. The steps go layer by layer, since feeding a stream token by token or layer by layer is the
same (`feedAll_cons`).

For the converse a layer is built whose rows and projections show the difference (`probe`).
-/

namespace PocketMoE.Engine
open PocketMoE.Lib PocketMoE.Ring PocketMoE.Tensor

variable {T X K : Type}

/-- What a request leaves and has read, layer by layer. -/
def Session.observed (session : Session X K) :
    List (LayerCache K × (Nat → Multiset (Row K))) :=
  session.map fun slot => (slot.2.cache, slot.2.reads)

section Layers

variable [Field K] [LinearOrder K] {cfg : EngineConfig} {opts : PrefillOptions} {expo : K → K}
  {n : Nat}

lemma decodeLayer_same {l : Layer X K} {s s' : LayerState K} {p : Nat} (x : X) (same : Same s s') :
    Same (decodeLayer cfg expo l s p x).1 (decodeLayer cfg expo l s' p x).1 ∧
      (decodeLayer cfg expo l s p x).2 = (decodeLayer cfg expo l s' p x).2 := by
  obtain ⟨cache, reads⟩ := same
  simp only [decodeLayer, LayerState.record, Same, cache, reads]
  exact ⟨⟨trivial, trivial⟩, trivial⟩

/-- Sessions with the same layers in the same states. -/
abbrev SameSession (p : Nat) (session session' : Session X K) : Prop :=
  Related (fun (_ : Layer X K) _ s s' => Same s s') p session session'

omit [Field K] [LinearOrder K] in
lemma SameSession.observed {p : Nat} {session session' : Session X K}
    (same : SameSession p session session') : session.observed = session'.observed := by
  induction same with
  | nil => rfl
  | cons here _ ih =>
    obtain ⟨_, cache, reads⟩ := here
    simp only [Session.observed, List.map_cons, cache, reads] at ih ⊢
    rw [ih]

lemma SameSession.decodeSteps {e : PersistentEngine T X K} {p : Nat}
    {session session' : Session X K} (same : SameSession p session session') (tokens : List T) :
    (e.decodeSteps session p tokens).observed = (e.decodeSteps session' p tokens).observed := by
  induction tokens generalizing session session' p with
  | nil => exact same.observed
  | cons token rest ih =>
    exact ih (Related.feed (fun a same => decodeLayer_same a same) same (e.embed token)).1

lemma prefillStack_quiet (expo : K → K) (safe : SafeCopy cfg opts n) (pos : 0 < n)
    (order : CopyOrder cfg.windowSize) (layer p : Nat) {session : Session X K}
    (quiet : ∀ l ∈ session.config, QuietLayer l n) {xs : List X} (len : xs.length = n) :
    SameSession p (prefillStack cfg opts order layer session xs).1
        (feedAll (decodeLayer cfg expo) session 0 xs).1 ∧
      (prefillStack cfg opts order layer session xs).2 =
        (feedAll (decodeLayer cfg expo) session 0 xs).2 := by
  induction session generalizing layer xs with
  | nil =>
    rw [feedAll_nil_stack]
    exact ⟨.nil, rfl⟩
  | cons slot rest ih =>
    obtain ⟨l, s⟩ := slot
    obtain ⟨here, others⟩ := List.forall_mem_cons.mp quiet
    obtain ⟨same, out⟩ := prefillLayer_quiet expo safe pos here order layer xs len s
    rw [feedAll_cons]
    simp only [prefillStack, out]
    have len' : (stage (decodeLayer cfg expo) l s 0 xs).2.length = n := by rw [length_stage, len]
    obtain ⟨all, last⟩ := ih (layer + 1) others len'
    exact ⟨.cons ⟨rfl, same⟩ all, last⟩

/-- For all weights, engine states, block orders and tokens: the first `n` tokens as a prompt and
the others decoded leave the same caches and read the same rows as all tokens decoded. -/
def PrefillRefines (T X K : Type) [Field K] [LinearOrder K] (cfg : EngineConfig)
    (opts : PrefillOptions) (layers : List LayerConfig) (n : Nat) : Prop :=
  ∀ (expo : K → K) (embed : T → X) (select : X → T) (order : CopyOrder cfg.windowSize)
    (session : Session X K) (tokens : List T), session.config = layers → n ≤ tokens.length →
    let e : PersistentEngine T X K := ⟨cfg, opts, expo, embed, select⟩
    ∃ viaPrefill first,
      e.prefill order (PersistentEngine.resetSession session) (tokens.take n) =
        some (viaPrefill, first) ∧
      (e.decodeSteps viaPrefill n (tokens.drop n)).observed =
        (e.decodeSteps (PersistentEngine.resetSession session) 0 tokens).observed

omit [LinearOrder K] in
lemma config_resetSession (session : Session X K) :
    Session.config (PersistentEngine.resetSession session) = session.config := by
  simp [Session.config, PersistentEngine.resetSession]

lemma decodeSteps_append (e : PersistentEngine T X K) (session : Session X K) (p : Nat)
    (tokens rest : List T) : e.decodeSteps session p (tokens ++ rest) =
      e.decodeSteps (e.decodeSteps session p tokens) (p + tokens.length) rest := by
  induction tokens generalizing session p with
  | nil => rfl
  | cons token tokens ih =>
    rw [List.cons_append, PersistentEngine.decodeSteps, ih, PersistentEngine.decodeSteps,
      List.length_cons, Nat.add_right_comm, Nat.add_assoc]

lemma PrefillRefines.of_quiet {layers : List LayerConfig} (pos : 0 < n)
    (quiet : ∀ l ∈ layers, QuietLayer l n) (safe : SafeCopy cfg opts n) :
    PrefillRefines T X K cfg opts layers n := by
  intro expo embed select order session tokens config le e
  have len : (tokens.take n).length = n := by simpa using le
  have some_tokens : 0 < (tokens.take n).length := by
    rw [len]
    exact pos
  obtain ⟨first, prefilled⟩ :=
    prefill_eq e order (PersistentEngine.resetSession session) some_tokens
  refine ⟨_, first, prefilled, ?_⟩
  have quiet' : ∀ l ∈ Session.config (PersistentEngine.resetSession session), QuietLayer l n := by
    rw [config_resetSession, config]
    exact quiet
  have len' : ((tokens.take n).map embed).length = n := by rw [List.length_map, len]
  obtain ⟨same, -⟩ := prefillStack_quiet expo safe pos order 0 n quiet' len'
  conv_rhs => rw [← List.take_append_drop n tokens, decodeSteps_append, len, Nat.zero_add,
    PersistentEngine.decodeSteps_eq (PersistentEngine.resetSession session)]
  exact SameSession.decodeSteps same _

end Layers

/-! ## Weights that show a difference -/

section Probes

variable [Field K] [LinearOrder K]

/-- A compressor that feeds ones. -/
def unitCompressor : DeviceCompressor X K where
  overlap := false
  headDim := 0
  wkv := fun _ _ => 1
  wgate := fun _ _ => 0
  ape := fun _ _ => 0
  finish := fun _ row => row

/-- A layer of a given configuration whose row is one at position `q` and zero elsewhere. -/
def probe (q : Nat) (c : LayerConfig) : Layer X K where
  toLayerConfig := c
  kvRow := fun _ p _ => if p = q then 1 else 0
  compressor := unitCompressor
  indexer := unitCompressor
  indexScore := fun _ _ _ => 0
  block := fun x _ _ => x

/-- Buffers of zeros. -/
def blank : LayerState K where
  cache := {
    kv := fun _ _ => 0
    compressor := CompressorState.reset
    indexerKv := fun _ _ => 0
    indexerCompressor := CompressorState.reset }
  reads := fun _ => 0
  written := fun _ => false
  stale := false

variable {cfg : EngineConfig} {opts : PrefillOptions} {expo : K → K} {n : Nat}

lemma observed_each (pos : 0 < n) (order : CopyOrder cfg.windowSize) (layer : Nat)
    {session : Session X K} {xs xs' : List X} (len : xs.length = n) (len' : xs'.length = n)
    (same : (prefillStack cfg opts order layer session xs).1.observed =
      Session.observed (feedAll (decodeLayer cfg expo) session 0 xs').1) :
    ∀ slot ∈ session, ∃ i ys ys', ys.length = n ∧ ys'.length = n ∧
      Same (prefillLayer cfg opts order i slot.1 slot.2 ys).1
        (stage (decodeLayer cfg expo) slot.1 slot.2 0 ys').1 := by
  induction session generalizing layer xs xs' with
  | nil => exact fun slot member => absurd member List.not_mem_nil
  | cons first rest ih =>
    obtain ⟨l, s⟩ := first
    rw [feedAll_cons] at same
    simp only [prefillStack, Session.observed, List.map_cons, List.cons.injEq, Prod.mk.injEq]
      at same
    obtain ⟨here, others⟩ := same
    refine List.forall_mem_cons.mpr ⟨⟨layer, xs, xs', len, len', here⟩, ?_⟩
    refine ih (layer + 1) (length_prefillLayer pos order layer l len s) ?_ others
    rw [length_stage, len']

lemma PrefillRefines.each [Inhabited T] [Inhabited X] {layers : List LayerConfig} (pos : 0 < n)
    (refines : PrefillRefines T X K cfg opts layers n) (order : CopyOrder cfg.windowSize) (q : Nat) :
    ∀ c ∈ layers, ∃ i ys ys', ys.length = n ∧ ys'.length = n ∧
      Same (prefillLayer cfg opts order i (probe q c : Layer X K) (blank : LayerState K).reset ys).1
        (stage (decodeLayer cfg id) (probe q c : Layer X K) blank.reset 0 ys').1 := by
  let e : PersistentEngine T X K := ⟨cfg, opts, id, fun _ => default, fun _ => default⟩
  let session : Session X K := layers.map fun c => (probe q c, blank)
  let prompt : List T := List.replicate n default
  have config : session.config = layers := by
    simp [session, Session.config, Function.comp_def, probe]
  have len : prompt.length = n := List.length_replicate
  obtain ⟨viaPrefill, first, prefilled, same⟩ :=
    refines id e.embed e.select order session prompt config len.ge
  rw [List.take_of_length_le len.le] at prefilled
  rw [List.drop_of_length_le len.le, PersistentEngine.decodeSteps,
    PersistentEngine.decodeSteps_eq] at same
  obtain ⟨first', prefilled'⟩ :=
    prefill_eq e order (PersistentEngine.resetSession session) (by rw [len]; exact pos)
  obtain ⟨rfl, -⟩ := Prod.mk.inj (Option.some.inj (prefilled.symm.trans prefilled'))
  have len' : (prompt.map e.embed).length = n := by rw [List.length_map, len]
  have each := observed_each pos order 0 len' len' same
  intro c member
  refine each (probe q c, blank.reset) ?_
  simp only [PersistentEngine.resetSession, session, List.map_map, List.mem_map]
  exact ⟨c, member, rfl⟩

lemma stage_last (cfg : EngineConfig) (expo : K → K) (l : Layer X K) (s : LayerState K)
    {xs : List X} (len : xs.length = n + 1) :
    ∃ s' x, (stage (decodeLayer cfg expo) l s 0 xs).1 = (decodeLayer cfg expo l s' n x).1 := by
  have ne : xs ≠ [] := List.ne_nil_of_length_pos (by omega)
  obtain ⟨ys, x, rfl⟩ := List.eq_nil_or_concat' xs |>.resolve_left ne
  have count : ys.length = n := by simpa using len
  rw [stage_append, stage_cons, Nat.zero_add, count]
  exact ⟨_, x, rfl⟩

omit [LinearOrder K] in
lemma unitCompressor_feed (expo : K → K) (ratio : Nat) (s : CompressorState K) (x : X) (p : Nat) :
    (unitCompressor.feed ratio expo s x p).1.kv (p % ratio) 0 = 1 := by
  have written : (unitCompressor.updateState ratio s x p).kv (p % ratio) = fun _ => 1 :=
    Function.update_self _ _ _
  unfold DeviceCompressor.feed
  split
  · exact congrFun written 0
  · exact congrFun written 0

lemma probe_not_compresses (pos : 0 < n) {order : CopyOrder cfg.windowSize} {i q : Nat}
    {c : LayerConfig} {ys ys' : List X} (len : ys.length = n) (len' : ys'.length = n)
    (same : Same
      (prefillLayer cfg opts order i (probe q c : Layer X K) (blank : LayerState K).reset ys).1
      (stage (decodeLayer cfg expo) (probe q c : Layer X K) blank.reset 0 ys').1) :
    ¬ c.compresses := by
  intro compresses
  obtain ⟨x, tabulated⟩ := exists_map_range (List.ne_nil_of_length_pos (len ▸ pos))
  rw [len] at tabulated
  subst tabulated
  obtain ⟨s', y, last⟩ := stage_last cfg expo (probe q c : Layer X K) blank.reset
    (len'.trans (Nat.sub_add_cancel pos).symm)
  have kept := congrArg (fun cache => cache.compressor.kv)
    (prefillLayer_eq opts pos order i (probe q c) x (blank : LayerState K).reset).1
  have fed := congrArg (fun cache => cache.compressor.kv) same.1
  simp only [last, decodeLayer, LayerState.record, decodeCall_compressor] at fed
  rw [runCompressor_compressor compresses] at fed
  have one := congrFun (congrFun (kept.symm.trans fed) ((n - 1) % c.compressRatio)) 0
  exact zero_ne_one (one.trans (unitCompressor_feed expo _ _ y (n - 1)))

lemma stage_reads (cfg : EngineConfig) (expo : K → K) (l : Layer X K) (s : LayerState K) (xs : List X) {p : Nat}
    (lt : p < xs.length) : ∃ c x, (stage (decodeLayer cfg expo) l s 0 xs).1.reads p =
      (decodeCall cfg expo l c x p).rows := by
  let Read : Nat → LayerState K → Prop := fun q s =>
    ∀ p < q, ∃ c x, s.reads p = (decodeCall cfg expo l c x p).rows
  have start : Read 0 s := fun p lt => absurd lt (Nat.not_lt_zero p)
  have all : Read (0 + xs.length) (stage (decodeLayer cfg expo) l s 0 xs).1 := by
    refine stage_invariant start fun {q s' x} _ before p lt' => ?_
    simp only [decodeLayer, LayerState.record, Function.update_apply]
    rcases Nat.lt_succ_iff_lt_or_eq.mp lt' with older | rfl
    · rw [if_neg older.ne]
      exact before p older
    · rw [if_pos rfl]
      exact ⟨_, x, rfl⟩
  exact all p (by omega)

lemma card_rows {l : Layer X K} (idle : ¬ l.compresses) (c : LayerCache K) (x : X) (p : Nat) :
    (decodeCall cfg expo l c x p).rows.card = min (p + 1) cfg.windowSize +
      min (compressedReady l.toLayerConfig p)
        (cfg.capacity l.toLayerConfig - cfg.windowSize) := by
  have plain : ¬ (l.indexes ∧ 0 < compressedReady l.toLayerConfig p) :=
    fun both => idle both.1.compresses
  rw [decodeCall_plain plain]
  simp [attendCall, windowSlots]

lemma probe_quiet (pos : 0 < n) {order : CopyOrder cfg.windowSize} {i q : Nat}
    {c : LayerConfig} {ys ys' : List X} (len : ys.length = n) (len' : ys'.length = n)
    (same : Same
      (prefillLayer cfg opts order i (probe q c : Layer X K) (blank : LayerState K).reset ys).1
      (stage (decodeLayer cfg expo) (probe q c : Layer X K) blank.reset 0 ys').1) :
    QuietLayer c n := by
  have idle := probe_not_compresses pos len len' same
  rcases Nat.eq_zero_or_pos c.compressRatio with zero | ratio_pos
  · exact Or.inl zero
  refine Or.inr ⟨idle, Nat.lt_of_not_le fun due => ?_⟩
  obtain ⟨x, tabulated⟩ := exists_map_range (List.ne_nil_of_length_pos (len ▸ pos))
  rw [len] at tabulated
  subst tabulated
  have inside : c.compressRatio - 1 < n := by omega
  obtain ⟨cache, y, read⟩ := stage_reads cfg expo (probe q c : Layer X K) blank.reset ys'
    (len' ▸ inside)
  have prefilled := congrFun
    (prefillLayer_eq opts pos order i (probe q c) x (blank : LayerState K).reset).2.1
    (c.compressRatio - 1)
  have counts := congrArg Multiset.card
    (prefilled.symm.trans ((congrFun same.2 (c.compressRatio - 1)).trans read))
  rw [if_pos inside, card_rows idle, Multiset.coe_card, windowRows, List.length_map,
    List.length_range] at counts
  have ready : compressedReady c (c.compressRatio - 1) = 1 := by
    rw [compressedReady, if_neg ratio_pos.ne', Nat.sub_add_cancel ratio_pos, Nat.div_self ratio_pos]
  have room : 1 ≤ cfg.capacity c - cfg.windowSize := by
    have := cfg.maxContext_pos
    rw [EngineConfig.capacity, if_neg ratio_pos.ne', Nat.add_sub_cancel_left,
      Nat.le_div_iff_mul_le ratio_pos]
    omega
  change _ = _ + min (compressedReady c (c.compressRatio - 1))
    (cfg.capacity c - cfg.windowSize) at counts
  rw [ready] at counts
  omega

/-- In every launch the first row of a slot is written last. -/
def firstWins (w : Nat) (hw : 0 < w) : CopyOrder w where
  winner := fun _ start _ slot _ => (slot + start * (w - 1)) % w
  winner_slot := by
    intro _ start rows slot _ r lt here
    have winner : (slot + start * (w - 1)) % w = r % w := by
      have whole : start + r + start * (w - 1) = r + start * w := by
        obtain ⟨v, rfl⟩ := Nat.exists_eq_succ_of_ne_zero hw.ne'
        rw [Nat.succ_sub_one, Nat.mul_succ]
        omega
      rw [← here, Nat.mod_add_mod, whole, Nat.add_mul_mod_self_right]
    rw [winner]
    refine ⟨lt_of_le_of_lt (Nat.mod_le r w) lt, ?_⟩
    rw [Nat.add_mod_mod, here]

omit [Field K] [LinearOrder K] in
lemma copied_first (layer : Nat) (row : Nat → Row K) (kv : Nat → Row K) {size b k : Nat}
    (top : min ((b + 1) * size) n = b * size + k) (long : cfg.windowSize < k) :
    copied cfg (firstWins cfg.windowSize cfg.windowSize_pos) layer row size n kv (b + 1)
      ((b * size + (k - 1)) % cfg.windowSize) = row (b * size + (k - 1) % cfg.windowSize) := by
  have rest : (k - 1) % cfg.windowSize < cfg.windowSize := Nat.mod_lt _ cfg.windowSize_pos
  have inside : (k - 1) % cfg.windowSize < k := by omega
  obtain ⟨v, hv⟩ := Nat.exists_eq_succ_of_ne_zero cfg.windowSize_pos.ne'
  have winner : ((b * size + (k - 1)) % cfg.windowSize + b * size * (cfg.windowSize - 1)) %
      cfg.windowSize = (k - 1) % cfg.windowSize := by
    have whole : b * size + (k - 1) + b * size * (cfg.windowSize - 1) =
        k - 1 + b * size * cfg.windowSize := by
      rw [hv, Nat.succ_sub_one, Nat.mul_succ]
      omega
    rw [Nat.mod_add_mod, whole, Nat.add_mul_mod_self_right]
  funext col
  simp only [copied, top, Nat.add_sub_cancel_left, copyRows, firstWins, winner]
  simp [inside]

omit [Field K] [LinearOrder K] in
lemma kvAfter_unsafe (pos : 0 < n) (no : ¬ SafeCopy cfg opts n) :
    ∃ start k, cfg.windowSize < k ∧ start + k ≤ n ∧ n < start + k + cfg.windowSize ∧
      ∀ (layer : Nat) (row kv : Nat → Row K),
        kvAfter cfg opts (firstWins cfg.windowSize cfg.windowSize_pos) layer row kv n
          ((start + (k - 1)) % cfg.windowSize) = row (start + (k - 1) % cfg.windowSize) := by
  obtain ⟨batched, some_more⟩ := Classical.not_imp.mp no
  obtain ⟨long, other⟩ := not_or.mp some_more
  have size_pos := chunkSize_pos opts pos
  obtain ⟨_, parts⟩ := chunk_count pos size_pos
  have few : lastChunk (opts.chunkSize n) n ≤ opts.chunkSize n := Nat.mod_lt _ size_pos
  have some_last : 0 < lastChunk (opts.chunkSize n) n := Nat.succ_pos _
  have small := chunkSize_le opts n
  have hw := cfg.windowSize_pos
  simp only [kvAfter, batched, if_true]
  generalize opts.chunkSize n = size at *
  generalize lastChunk size n = last at *
  generalize (n - 1) / size = b at *
  have next : (b + 1) * size = b * size + size := Nat.succ_mul b size
  rcases Nat.lt_or_gt_of_ne other with short | more
  · -- the chunk before the last one, of which the last one leaves a slot
    cases b with
    | zero =>
      rw [Nat.zero_mul] at parts
      omega
    | succ b =>
      have before : (b + 1) * size = b * size + size := Nat.succ_mul b size
      refine ⟨b * size, size, by omega, by omega, by omega, fun layer row kv => ?_⟩
      rw [copied, copyRows_of_ne]
      · exact copied_first layer row kv (by omega) (by omega)
      · intro r lt
        rw [List.length_map, List.length_range] at lt
        exact (slot_ne (by omega) (by omega)).symm
  · refine ⟨b * size, last, more, by omega, by omega, fun layer row kv => ?_⟩
    exact copied_first layer row kv (by omega) more

lemma stage_ring (cfg : EngineConfig) (expo : K → K) {l : Layer X K} {row : Nat → Row K}
    (rows : ∀ x p, l.kvRow x p = row p) (s : LayerState K) (xs : List X) :
    Holds cfg.windowSize row (stage (decodeLayer cfg expo) l s 0 xs).1.cache.kv 0 xs.length := by
  let Ring : Nat → LayerState K → Prop := fun q s => Holds cfg.windowSize row s.cache.kv 0 q
  have start : Ring 0 s := Holds.start
  have all : Ring (0 + xs.length) (stage (decodeLayer cfg expo) l s 0 xs).1 := by
    refine stage_invariant start fun {q s' x} _ before => ?_
    have kept : Holds cfg.windowSize row (runCompressor cfg expo l s'.cache x q).1.kv 0 q :=
      before.congr cfg.windowSize_pos fun slot inside => runCompressor_ring inside
    have written := kept.write
    rw [← rows x q, ← decodeCall_kv] at written
    exact written
  rwa [Nat.zero_add] at all

lemma probe_safe (expo : K → K) (pos : 0 < n) (no : ¬ SafeCopy cfg opts n) :
    ∃ q, ∀ (i : Nat) (c : LayerConfig) (ys ys' : List X), ys.length = n → ys'.length = n →
      ¬ Same (prefillLayer cfg opts (firstWins cfg.windowSize cfg.windowSize_pos) i
          (probe q c : Layer X K) (blank : LayerState K).reset ys).1
        (stage (decodeLayer cfg expo) (probe q c : Layer X K) blank.reset 0 ys').1 := by
  obtain ⟨start, k, long, inside, near, left⟩ := kvAfter_unsafe (K := K) pos no
  refine ⟨start + (k - 1) % cfg.windowSize, fun i c ys ys' len len' same => ?_⟩
  obtain ⟨x, tabulated⟩ := exists_map_range (List.ne_nil_of_length_pos (len ▸ pos))
  rw [len] at tabulated
  subst tabulated
  have rest : (k - 1) % cfg.windowSize < cfg.windowSize := Nat.mod_lt _ cfg.windowSize_pos
  let row : Nat → Row K := fun p _ => if p = start + (k - 1) % cfg.windowSize then 1 else 0
  have prefilled := congrArg LayerCache.kv (prefillLayer_eq opts pos
    (firstWins cfg.windowSize cfg.windowSize_pos) i
    (probe (start + (k - 1) % cfg.windowSize) c) x (blank : LayerState K).reset).1
  have rows : ∀ x p, (probe (start + (k - 1) % cfg.windowSize) c : Layer X K).kvRow x p = row p :=
    fun _ _ => rfl
  have decoded := stage_ring cfg expo rows blank.reset ys' (start + (k - 1)) (Nat.zero_le _)
    (by omega) (by omega)
  rw [← same.1, prefilled] at decoded
  have differ := congrFun ((left i row _).symm.trans decoded) 0
  simp only [row, if_true] at differ
  rw [if_neg (by omega)] at differ
  exact one_ne_zero differ

end Probes

/-- Prefill refines decode, for every prompt of `n` tokens and any number of decoded tokens after
it, exactly when all layers are quiet for the prompt and the copies into the ring are safe. -/
theorem prefillRefines_iff [Field K] [LinearOrder K] [Inhabited T] [Inhabited X]
    (cfg : EngineConfig) (opts : PrefillOptions) {layers : List LayerConfig} {n : Nat}
    (some_layer : layers ≠ []) (pos : 0 < n) :
    PrefillRefines T X K cfg opts layers n ↔
      (∀ l ∈ layers, QuietLayer l n) ∧ SafeCopy cfg opts n := by
  constructor
  · intro refines
    let order := firstWins cfg.windowSize cfg.windowSize_pos
    refine ⟨fun c member => ?_, ?_⟩
    · obtain ⟨i, ys, ys', len, len', same⟩ := refines.each pos order 0 c member
      exact probe_quiet pos len len' same
    · by_contra no
      obtain ⟨q, differ⟩ := probe_safe (X := X) (id : K → K) pos no
      obtain ⟨i, ys, ys', len, len', same⟩ :=
        refines.each pos order q _ (List.head_mem some_layer)
      exact differ i _ ys ys' len len' same
  · rintro ⟨quiet, safe⟩
    exact PrefillRefines.of_quiet pos quiet safe

/-- The window and the indexer's budget of the model, with a small context. -/
def smallContext : EngineConfig where
  windowSize := 128
  maxContext := 4096
  indexTopk := 512
  windowSize_pos := by decide
  maxContext_pos := by decide

/-- The defaults: batched attention, chunks of 4096 tokens. -/
def defaultOptions : PrefillOptions where
  chunkTokens := 4096
  batchedAttn := true

/-- A layer that attends to its window only. -/
def windowLayer : LayerConfig := ⟨0, false, false, by decide⟩

/-- A layer with a compressor of ratio 4 and an indexer. -/
def indexedLayer : LayerConfig := ⟨4, true, true, by decide⟩

theorem prefillRefines_iff_window :
    PrefillRefines Nat Nat ℚ smallContext defaultOptions [windowLayer] 3 ↔
      (∀ l ∈ [windowLayer], QuietLayer l 3) ∧ SafeCopy smallContext defaultOptions 3 :=
  prefillRefines_iff smallContext defaultOptions (by decide) (by decide)

/-- A prompt of one token: decode feeds it to the compressor, prefill does not. -/
theorem not_prefillRefines_indexed :
    ¬ PrefillRefines Nat Nat ℚ smallContext defaultOptions [indexedLayer] 1 := by
  intro refines
  obtain ⟨i, ys, ys', len, len', same⟩ := refines.each (by decide)
    (firstWins smallContext.windowSize smallContext.windowSize_pos) 0 indexedLayer
    (List.mem_singleton_self _)
  exact probe_not_compresses (by decide) len len' same ⟨by decide, by decide, rfl⟩

end PocketMoE.Engine
