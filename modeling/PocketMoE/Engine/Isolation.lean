import PocketMoE.Engine.PrefillRefines
import PocketMoE.Engine.Written

/-!
# Requests on one engine

`reset_session` resets the compressor states and leaves the KV and indexer caches as they are. So a
request depends on the ones before it exactly when one of its reads finds a cell that has not been
written since the reset. `isolated_iff` says when that happens: prefill writes no compressed cell
and no indexer cell, so the cells of groups that the prompt completes are stale when decode reads
them, and so are those of a layer whose compressor does not run.
-/

namespace PocketMoE.Engine
open PocketMoE.Lib PocketMoE.Ring PocketMoE.Tensor

variable {T X K : Type}

section Requests

variable [Field K] [LinearOrder K] {cfg : EngineConfig} {opts : PrefillOptions} {n m p : Nat}

/-- Sessions of the same layers, all with reads of their own, that agree on what has been written. -/
abbrev OwnSession (cfg : EngineConfig) (n m p : Nat) (session session' : Session X K) : Prop :=
  Related (fun l p s s' => OwnReads l.toLayerConfig n m ∧ Own cfg l.toLayerConfig n p s s') p
    session session'

omit [Field K] [LinearOrder K] in
lemma OwnSession.prefill {session session' : Session X K}
    (own : OwnSession cfg n m 0 session session') (opts : PrefillOptions) (pos : 0 < n)
    (order : CopyOrder cfg.windowSize) (layer : Nat) {xs : List X} (len : xs.length = n) :
    OwnSession cfg n m n (prefillStack cfg opts order layer session xs).1
        (prefillStack cfg opts order layer session' xs).1 ∧
      (prefillStack cfg opts order layer session xs).2 =
        (prefillStack cfg opts order layer session' xs).2 := by
  induction own generalizing layer xs with
  | nil => exact ⟨.nil, rfl⟩
  | @cons slot slot' rest rest' here _ ih =>
    obtain ⟨l, s⟩ := slot
    obtain ⟨l', s'⟩ := slot'
    obtain ⟨rfl, reads, own⟩ := here
    obtain ⟨kept, same⟩ := own.prefill opts pos order layer len
    simp only [prefillStack, ← same]
    obtain ⟨all, out⟩ := ih (layer + 1) (length_prefillLayer pos order layer l len s)
    exact ⟨.cons ⟨rfl, reads, kept⟩ all, out⟩

lemma OwnSession.decodeGreedy {e : PersistentEngine T X K} {session session' : Session X K}
    (own : OwnSession e.config n m p session session') (fits : n + m ≤ e.config.maxContext)
    (ge : n ≤ p) (token : T) {k : Nat} (le : p + k ≤ n + m) :
    OwnSession e.config n m (p + k) (e.decodeGreedy session token p k).1
        (e.decodeGreedy session' token p k).1 ∧
      (e.decodeGreedy session token p k).2 = (e.decodeGreedy session' token p k).2 := by
  induction k generalizing session session' p token with
  | zero => exact ⟨own, rfl⟩
  | succ k ih =>
    have keeps : ∀ {l : Layer X K} {s s' : LayerState K} (x : X),
        OwnReads l.toLayerConfig n m ∧ Own e.config l.toLayerConfig n p s s' →
        (OwnReads l.toLayerConfig n m ∧ Own e.config l.toLayerConfig n (p + 1)
          (decodeLayer e.config e.expo l s p x).1 (decodeLayer e.config e.expo l s' p x).1) ∧
          (decodeLayer e.config e.expo l s p x).2 = (decodeLayer e.config e.expo l s' p x).2 := by
      intro l s s' x here
      obtain ⟨next, same⟩ := here.2.decode e.expo x here.1 ge (by omega) fits
      exact ⟨⟨here.1, next⟩, same⟩
    obtain ⟨next, same⟩ := Related.feed keeps own (e.embed token)
    simp only [PersistentEngine.decodeGreedy, PersistentEngine.decodeStep, ← same]
    obtain ⟨all, tokens⟩ := ih next (by omega) (e.select (feed (decodeLayer e.config e.expo)
      session p (e.embed token)).2) (by omega)
    rw [Nat.add_right_comm, Nat.add_assoc] at all
    exact ⟨all, congrArg _ tokens⟩

omit [LinearOrder K] in
lemma OwnSession.reset {session session' : Session X K}
    (reads : ∀ l ∈ session.config, OwnReads l n m)
    (same : session'.map Prod.fst = session.map Prod.fst) :
    OwnSession cfg n m 0 (PersistentEngine.resetSession session)
      (PersistentEngine.resetSession session') := by
  induction session generalizing session' with
  | nil =>
    obtain rfl := List.map_eq_nil_iff.mp same
    exact .nil
  | cons slot rest ih =>
    cases session' with
    | nil => cases same
    | cons slot' rest' =>
      obtain ⟨here, others⟩ := List.forall_mem_cons.mp reads
      obtain ⟨layer, layers⟩ := List.cons.inj same
      exact .cons ⟨layer.symm, here, Own.reset _ _ _⟩ (ih others layers)

omit [Field K] [LinearOrder K] in
lemma OwnSession.stale {session session' : Session X K}
    (own : OwnSession cfg n m p session session') : ∀ slot ∈ session, slot.2.stale = false := by
  induction own with
  | nil => exact fun slot member => absurd member List.not_mem_nil
  | cons here _ ih => exact List.forall_mem_cons.mpr ⟨here.2.2.stale, ih⟩

/-- For all weights, block orders, prompts of `n` tokens and any two states that earlier requests
may have left: a request with `m` decode steps reads only cells written since its reset, and
returns the same tokens. -/
def Isolated (T X K : Type) [Field K] [LinearOrder K] (cfg : EngineConfig)
    (opts : PrefillOptions) (layers : List LayerConfig) (n m : Nat) : Prop :=
  ∀ (expo : K → K) (embed : T → X) (select : X → T) (order : CopyOrder cfg.windowSize)
    (session session' : Session X K) (prompt : List T), session.config = layers →
    session'.map Prod.fst = session.map Prod.fst → prompt.length = n →
    let e : PersistentEngine T X K := ⟨cfg, opts, expo, embed, select⟩
    ∃ after after' tokens, e.generate order session prompt m = some (after, tokens) ∧
      e.generate order session' prompt m = some (after', tokens) ∧
      ∀ slot ∈ after, slot.2.stale = false

lemma Isolated.of_ownReads {layers : List LayerConfig} (pos : 0 < n)
    (fits : n + m ≤ cfg.maxContext) (reads : ∀ l ∈ layers, OwnReads l n m) :
    Isolated T X K cfg opts layers n m := by
  intro expo embed select order session session' prompt config same len e
  have start : OwnSession cfg n m 0 (PersistentEngine.resetSession session)
      (PersistentEngine.resetSession session') :=
    OwnSession.reset (by rw [config]; exact reads) same
  have len' : (prompt.map embed).length = n := by rw [List.length_map, len]
  obtain ⟨prefilled, rows⟩ := start.prefill opts pos order 0 len'
  have count : (prefillStack cfg opts order 0 (PersistentEngine.resetSession session)
      (prompt.map embed)).2.length = n := length_prefillStack pos order 0 _ len'
  have ne := List.ne_nil_of_length_pos (count ▸ pos)
  obtain ⟨decoded, tokens⟩ := OwnSession.decodeGreedy (e := e) prefilled fits le_rfl
    (select (List.getLast _ ne)) le_rfl
  simp only [PersistentEngine.generate, PersistentEngine.prefill, e, ← rows,
    List.getLast?_eq_some_getLast ne, Option.map_some, Option.bind_eq_bind, Option.bind_some, len]
  exact ⟨_, _, _, rfl, congrArg some (Prod.ext rfl (congrArg (List.cons _) tokens.symm)),
    decoded.stale⟩

end Requests

/-! ## Reads of stale cells -/

section Stale

variable [Field K] [LinearOrder K] {cfg : EngineConfig} {opts : PrefillOptions} {expo : K → K}
  {l : Layer X K} {n m p : Nat}

/-- The first cell that decode reads behind the window. -/
def firstCell (cfg : EngineConfig) (l : LayerConfig) : Cell :=
  if l.indexes then .indexer 0 else .kv cfg.windowSize

omit [Field K] [LinearOrder K] in
lemma firstCell_ne_slot (cfg : EngineConfig) (l : LayerConfig) (q : Nat) :
    firstCell cfg l ≠ .kv (q % cfg.windowSize) := by
  unfold firstCell
  split
  · exact fun same => Cell.noConfusion same
  · exact fun same => (Nat.mod_lt q cfg.windowSize_pos).ne' (Cell.kv.inj same)

lemma decodeCall_wrote {c : LayerCache K} {x : X} {cell : Cell}
    (member : cell ∈ (decodeCall cfg expo l c x p).wrote) :
    cell = .kv (p % cfg.windowSize) ∨
      (l.compresses ∧ cell = .kv (cfg.windowSize + p / l.compressRatio)) ∨
      (l.indexes ∧ cell = .indexer (p / 4)) := by
  have compressed : cell ∈ (runCompressor cfg expo l c x p).2 →
      l.compresses ∧ cell = .kv (cfg.windowSize + p / l.compressRatio) := by
    rw [runCompressor_wrote]
    split
    case isTrue all => exact fun here => ⟨all.1, List.mem_singleton.mp here⟩
    case isFalse => exact fun here => absurd here List.not_mem_nil
  by_cases indexes : l.indexes ∧ 0 < compressedReady l.toLayerConfig p
  · rw [decodeCall_indexed indexes] at member
    rcases List.mem_append.mp member with before | slot
    · rcases List.mem_append.mp before with here | indexed
      · exact Or.inr (Or.inl (compressed here))
      · rw [feedIndexer_wrote] at indexed
        split at indexed
        · exact Or.inr (Or.inr ⟨indexes.1, List.mem_singleton.mp indexed⟩)
        · exact absurd indexed List.not_mem_nil
    · exact Or.inl (List.mem_singleton.mp slot)
  · rw [decodeCall_plain indexes] at member
    rcases List.mem_append.mp member with here | slot
    · exact Or.inr (Or.inl (compressed here))
    · exact Or.inl (List.mem_singleton.mp slot)

lemma decodeCall_first {c : LayerCache K} {x : X} (late : l.compresses → l.compressRatio ≤ p) :
    firstCell cfg l.toLayerConfig ∉ (decodeCall cfg expo l c x p).wrote := by
  intro member
  rcases decodeCall_wrote member with slot | ⟨compresses, cell⟩ | ⟨indexes, cell⟩
  · exact firstCell_ne_slot _ _ _ slot
  · have some_cell := Nat.div_pos (late compresses) compresses.1
    unfold firstCell at cell
    split at cell
    · cases cell
    · have := Cell.kv.inj cell
      omega
  · have four := indexes.1 ▸ late indexes.compresses
    rw [firstCell, if_pos indexes] at cell
    have := Cell.indexer.inj cell
    omega

lemma decodeCall_reads_first {c : LayerCache K} {x : X}
    (due : 0 < compressedReady l.toLayerConfig p) :
    firstCell cfg l.toLayerConfig ∈ (decodeCall cfg expo l c x p).read := by
  by_cases indexes : l.indexes
  · rw [decodeCall_indexed ⟨indexes, due⟩, firstCell, if_pos indexes]
    exact List.mem_append_left _ (List.mem_map_of_mem (List.mem_range.mpr due))
  · have plain : ¬ (l.indexes ∧ 0 < compressedReady l.toLayerConfig p) := fun both => indexes both.1
    rw [decodeCall_plain plain, firstCell, if_neg indexes]
    have ratio_pos : 0 < l.compressRatio := by
      rw [Nat.pos_iff_ne_zero]
      intro zero
      rw [compressedReady, if_pos zero] at due
      exact absurd due (lt_irrefl 0)
    have room : 0 < cfg.capacity l.toLayerConfig - cfg.windowSize :=
      Nat.sub_pos_of_lt
        ((Nat.le_add_right _ _).trans_lt (cell_lt_capacity ratio_pos cfg.maxContext_pos))
    refine List.mem_append_right _ (List.mem_map_of_mem (List.mem_append_right _ ?_))
    exact List.mem_map.mpr ⟨0, List.mem_range.mpr (lt_min due room), rfl⟩

omit [Field K] [LinearOrder K] in
lemma prefillLayer_written {cell : Cell} (outside : ∀ q, cell ≠ .kv (q % cfg.windowSize))
    (order : CopyOrder cfg.windowSize) (layer : Nat) {s : LayerState K}
    (unwritten : s.written cell = false) (xs : List X) :
    (prefillLayer cfg opts order layer l s xs).1.written cell = false := by
  suffices chunks : ∀ size b,
      (prefillChunks cfg opts order layer l s xs size b).1.written cell = false from chunks _ _
  intro size b
  induction b with
  | zero => exact unwritten
  | succ b ih =>
    simp only [prefillChunks]
    cases opts.batchedAttn with
    | true =>
      refine Bool.eq_false_iff.mpr fun here => ?_
      rcases addCells_iff.mp here with before | copied
      · exact absurd (ih.symm.trans before) (by decide)
      · obtain ⟨i, -, slot⟩ := List.mem_map.mp copied
        exact outside _ slot.symm
    | false =>
      let Unwritten : Nat → LayerState K → Prop := fun _ s => s.written cell = false
      refine stage_invariant (P := Unwritten) ih fun {q s x} _ before => ?_
      refine Bool.eq_false_iff.mpr fun here => ?_
      rcases addCells_iff.mp here with old | new
      · exact absurd (before.symm.trans old) (by decide)
      · exact outside q (List.mem_singleton.mp new)

lemma decode_stale (expo : K → K) (due : l.compressRatio ≤ n + m) (ratio_pos : 0 < l.compressRatio)
    (late : l.compresses → l.compressRatio ≤ n) {s : LayerState K}
    (unwritten : s.written (firstCell cfg l.toLayerConfig) = false) {xs : List X}
    (len : xs.length = m) (some_step : 0 < m) :
    (stage (decodeLayer cfg expo) l s n xs).1.stale = true := by
  let Inv : Nat → LayerState K → Prop := fun q s =>
    n ≤ q ∧ s.written (firstCell cfg l.toLayerConfig) = false ∧
      (n < q → l.compressRatio ≤ q → s.stale = true)
  have start : Inv n s := ⟨le_rfl, unwritten, fun lt => absurd lt (lt_irrefl n)⟩
  have all : Inv (n + xs.length) (stage (decodeLayer cfg expo) l s n xs).1 := by
    refine stage_invariant start fun {q s x} _ inv => ?_
    obtain ⟨ge, before, -⟩ := inv
    have after : addCells s.written (decodeCall cfg expo l s.cache x q).wrote
        (firstCell cfg l.toLayerConfig) = false := by
      refine Bool.eq_false_iff.mpr fun here => ?_
      rcases addCells_iff.mp here with old | new
      · exact absurd (before.symm.trans old) (by decide)
      · exact decodeCall_first (fun compresses => (late compresses).trans ge) new
    refine ⟨ge.trans (Nat.le_succ q), after, fun _ ready => ?_⟩
    have read : firstCell cfg l.toLayerConfig ∈ (decodeCall cfg expo l s.cache x q).read := by
      refine decodeCall_reads_first ?_
      rw [compressedReady, if_neg ratio_pos.ne']
      exact Nat.div_pos ready ratio_pos
    refine (Bool.or_eq_true _ _).mpr (Or.inr (List.any_eq_true.mpr ⟨_, read, ?_⟩))
    exact (congrArg not after : _)
  exact all.2.2 (by omega) (by omega)

omit [Field K] [LinearOrder K] in
lemma prefillStack_mem (opts : PrefillOptions) (pos : 0 < n) (order : CopyOrder cfg.windowSize)
    (layer : Nat) {session : Session X K} {xs : List X} (len : xs.length = n)
    {slot : Layer X K × LayerState K} (member : slot ∈ session) :
    ∃ i ys, (slot.1, (prefillLayer cfg opts order i slot.1 slot.2 ys).1) ∈
      (prefillStack cfg opts order layer session xs).1 := by
  induction session generalizing layer xs with
  | nil => exact absurd member List.not_mem_nil
  | cons first rest ih =>
    rcases List.mem_cons.mp member with rfl | later
    · exact ⟨layer, xs, List.mem_cons_self⟩
    · obtain ⟨i, ys, found⟩ :=
        ih (layer + 1) (length_prefillLayer pos order layer first.1 len first.2) later
      exact ⟨i, ys, List.mem_cons_of_mem _ found⟩

lemma decodeGreedy_eq (e : PersistentEngine T X K) (session : Session X K) (token : T) (p k : Nat) :
    ∃ xs, xs.length = k ∧
      (e.decodeGreedy session token p k).1 =
        (feedAll (decodeLayer e.config e.expo) session p xs).1 := by
  induction k generalizing session token p with
  | zero => exact ⟨[], rfl, rfl⟩
  | succ k ih =>
    obtain ⟨xs, len, same⟩ := ih (e.decodeStep session token p).1
      (e.decodeStep session token p).2 (p + 1)
    exact ⟨e.embed token :: xs, congrArg Nat.succ len, same⟩

lemma Isolated.ownReads [Inhabited T] [Inhabited X] {layers : List LayerConfig} (pos : 0 < n)
    (isolated : Isolated T X K cfg opts layers n m) : ∀ l ∈ layers, OwnReads l n m := by
  intro c member
  by_contra no
  obtain ⟨ratio_pos, some_step, due, late⟩ : 0 < c.compressRatio ∧ 0 < m ∧
      c.compressRatio ≤ n + m ∧ (c.compresses → c.compressRatio ≤ n) := by
    simp only [OwnReads, not_or, not_and, not_lt] at no
    exact ⟨Nat.pos_of_ne_zero no.1, Nat.pos_of_ne_zero no.2.1, no.2.2⟩
  let e : PersistentEngine T X K := ⟨cfg, opts, id, fun _ => default, fun _ => default⟩
  let order := firstWins cfg.windowSize cfg.windowSize_pos
  let session : Session X K := layers.map fun c => (probe 0 c, blank)
  let prompt : List T := List.replicate n default
  have config : session.config = layers := by
    simp [session, Session.config, Function.comp_def, probe]
  have len : prompt.length = n := List.length_replicate
  obtain ⟨after, _, tokens, generated, _, fresh⟩ :=
    isolated id e.embed e.select order session session prompt config rfl len
  obtain ⟨first, prefilled⟩ :=
    prefill_eq e order (PersistentEngine.resetSession session) (by rw [len]; exact pos)
  obtain ⟨xs, count, decoded⟩ := decodeGreedy_eq e (prefillStack e.config e.options order 0
    (PersistentEngine.resetSession session) (prompt.map e.embed)).1 first n m
  have len' : (prompt.map e.embed).length = n := by rw [List.length_map, len]
  have here : ((probe 0 c : Layer X K), (blank : LayerState K).reset) ∈
      PersistentEngine.resetSession session := by
    simp only [PersistentEngine.resetSession, session, List.map_map, List.mem_map]
    exact ⟨c, member, rfl⟩
  obtain ⟨i, ys, prefilled_mem⟩ := prefillStack_mem opts pos order 0 len' here
  obtain ⟨zs, zs_len, final⟩ := feedAll_mem (decodeLayer cfg id) n xs prefilled_mem
  have final_after : (probe 0 c, (stage (decodeLayer cfg id) (probe 0 c)
      (prefillLayer cfg opts order i (probe 0 c) (blank : LayerState K).reset ys).1 n zs).1) ∈
      after := by
    rw [PersistentEngine.generate, prefilled, len] at generated
    obtain ⟨rfl, -⟩ := Prod.mk.inj (Option.some.inj generated)
    exact decoded ▸ final
  have unwritten : (prefillLayer cfg opts order i (probe 0 c : Layer X K)
      (blank : LayerState K).reset ys).1.written (firstCell cfg c) = false :=
    prefillLayer_written (firstCell_ne_slot cfg c) order i rfl ys
  have stale := decode_stale (l := probe 0 c) id due ratio_pos late unwritten
    (zs_len.trans count) some_step
  exact absurd (stale.symm.trans (fresh _ final_after)) (by decide)

end Stale

/-- A request of `n` prompt tokens and `m` decode steps inside the context is isolated from earlier
ones exactly when every layer has reads of its own. -/
theorem isolated_iff [Field K] [LinearOrder K] [Inhabited T] [Inhabited X] (cfg : EngineConfig)
    (opts : PrefillOptions) (layers : List LayerConfig) {n m : Nat} (pos : 0 < n)
    (fits : n + m ≤ cfg.maxContext) :
    Isolated T X K cfg opts layers n m ↔ ∀ l ∈ layers, OwnReads l n m :=
  ⟨fun isolated => isolated.ownReads pos, fun reads => Isolated.of_ownReads pos fits reads⟩

theorem isolated_iff_window : Isolated Nat Nat ℚ smallContext defaultOptions [windowLayer] 3 2 ↔
    ∀ l ∈ [windowLayer], OwnReads l 3 2 :=
  isolated_iff smallContext defaultOptions [windowLayer] (by decide) (by decide)

/-- A prompt of four tokens: prefill leaves the first cell as it was, and decode reads it. -/
theorem not_isolated_indexed :
    ¬ Isolated Nat Nat ℚ smallContext defaultOptions [indexedLayer] 4 1 := by
  intro isolated
  have reads := isolated.ownReads (by decide) indexedLayer (List.mem_singleton_self _)
  rcases reads with zero | none_ | short | ⟨_, few⟩
  · exact absurd zero (by decide)
  · exact absurd none_ (by decide)
  · exact absurd short (by decide)
  · exact absurd few (by decide)

end PocketMoE.Engine
