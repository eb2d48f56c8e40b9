import PocketMoE.Engine.Prompt

/-!
# What a request has written

Two runs of a request, on engines with different histories. The states of a layer in the two runs
are related by `Own`: the same cells have been written since the reset, with the same rows, and the
compressor states are equal. A call whose reads are all of written cells keeps the relation and
returns the same (`decodeCall_agree`, `Own.token`); a chunk of the batched path reads no cell at all
(`Own.batch`). Which cells are written is a matter of positions only, so whether a decoded token
reads more than has been written is one too: `Own.reads_written`.
-/

namespace PocketMoE.Engine
open PocketMoE.Lib PocketMoE.Ring PocketMoE.Tensor

variable {T X K : Type}

/-! ## Caches that agree where they have been written -/

/-- Caches with equal compressor states that agree on a set of cells. -/
structure AgreeOn (W : Cell → Bool) (c c' : LayerCache K) : Prop where
  kv : ∀ slot, W (.kv slot) = true → c.kv slot = c'.kv slot
  indexer : ∀ cell, W (.indexer cell) = true → c.indexerKv cell = c'.indexerKv cell
  compressor : c.compressor = c'.compressor
  indexerCompressor : c.indexerCompressor = c'.indexerCompressor

/-- A set of cells with some more. -/
def addCells (W : Cell → Bool) (cells : List Cell) : Cell → Bool := fun cell =>
  W cell || decide (cell ∈ cells)

section Cells

variable {W : Cell → Bool} {cells cells' : List Cell} {cell : Cell}

lemma addCells_iff : addCells W cells cell = true ↔ W cell = true ∨ cell ∈ cells := by
  simp [addCells]

@[simp] lemma addCells_nil : addCells W [] = W := by
  funext cell
  simp [addCells]

lemma addCells_append : addCells W (cells ++ cells') = addCells (addCells W cells) cells' := by
  funext cell
  simp [addCells, Bool.or_assoc]

variable {c c' : LayerCache K}

lemma AgreeOn.writeKv (agree : AgreeOn W c c') (slot : Nat) (row : Row K) :
    AgreeOn (addCells W [.kv slot]) { c with kv := Function.update c.kv slot row }
      { c' with kv := Function.update c'.kv slot row } := by
  refine ⟨fun slot' here => ?_, fun cell here => ?_, agree.compressor, agree.indexerCompressor⟩
  · rcases eq_or_ne slot' slot with rfl | ne
    · simp only [Function.update_self]
    · simp only [Function.update_of_ne ne]
      rcases addCells_iff.mp here with old | new
      · exact agree.kv slot' old
      · exact absurd (Cell.kv.inj (List.mem_singleton.mp new)) ne
  · rcases addCells_iff.mp here with old | new
    · exact agree.indexer cell old
    · cases List.mem_singleton.mp new

lemma AgreeOn.writeIndexer (agree : AgreeOn W c c') (cell : Nat) (row : Row K) :
    AgreeOn (addCells W [.indexer cell])
      { c with indexerKv := Function.update c.indexerKv cell row }
      { c' with indexerKv := Function.update c'.indexerKv cell row } := by
  refine ⟨fun slot here => ?_, fun cell' here => ?_, agree.compressor, agree.indexerCompressor⟩
  · rcases addCells_iff.mp here with old | new
    · exact agree.kv slot old
    · cases List.mem_singleton.mp new
  · rcases eq_or_ne cell' cell with rfl | ne
    · simp only [Function.update_self]
    · simp only [Function.update_of_ne ne]
      rcases addCells_iff.mp here with old | new
      · exact agree.indexer cell' old
      · exact absurd (Cell.indexer.inj (List.mem_singleton.mp new)) ne

end Cells

section Decode

variable [Field K] [LinearOrder K] {cfg : EngineConfig} {expo : K → K} {l : Layer X K}
  {W : Cell → Bool} {c c' : LayerCache K} {x : X} {p : Nat}

omit [LinearOrder K] in
lemma runCompressor_agree (agree : AgreeOn W c c') :
    (runCompressor cfg expo l c x p).2 = (runCompressor cfg expo l c' x p).2 ∧
      AgreeOn (addCells W (runCompressor cfg expo l c x p).2)
        (runCompressor cfg expo l c x p).1 (runCompressor cfg expo l c' x p).1 := by
  by_cases compresses : l.compresses
  · simp only [runCompressor, compresses, if_true, ← agree.compressor]
    have fed : AgreeOn W
        { c with compressor := (l.compressor.feed l.compressRatio expo c.compressor x p).1 }
        { c' with compressor := (l.compressor.feed l.compressRatio expo c.compressor x p).1 } :=
      ⟨agree.kv, agree.indexer, rfl, agree.indexerCompressor⟩
    cases (l.compressor.feed l.compressRatio expo c.compressor x p).2 with
    | none => exact ⟨rfl, by simpa using fed⟩
    | some row =>
      dsimp only
      split
      · exact ⟨rfl, fed.writeKv _ row⟩
      · exact ⟨rfl, by simpa using fed⟩
  · rw [runCompressor_idle compresses, runCompressor_idle compresses]
    exact ⟨rfl, by simpa using agree⟩

omit [LinearOrder K] in
lemma feedIndexer_agree (agree : AgreeOn W c c') :
    (feedIndexer expo l c x p).2 = (feedIndexer expo l c' x p).2 ∧
      AgreeOn (addCells W (feedIndexer expo l c x p).2)
        (feedIndexer expo l c x p).1 (feedIndexer expo l c' x p).1 := by
  simp only [feedIndexer, ← agree.indexerCompressor]
  have fed : AgreeOn W
      { c with indexerCompressor := (l.indexer.feed 4 expo c.indexerCompressor x p).1 }
      { c' with indexerCompressor := (l.indexer.feed 4 expo c.indexerCompressor x p).1 } :=
    ⟨agree.kv, agree.indexer, agree.compressor, rfl⟩
  cases (l.indexer.feed 4 expo c.indexerCompressor x p).2 with
  | none => exact ⟨rfl, by simpa using fed⟩
  | some row => exact ⟨rfl, fed.writeIndexer _ row⟩

omit [Field K] in
lemma selectCells_agree {ready : Nat}
    (same : ∀ cell, cell < ready → c.indexerKv cell = c'.indexerKv cell) :
    selectCells cfg l c x p ready = selectCells cfg l c' x p ready := by
  simp only [selectCells]
  congr 1
  exact List.map_congr_left fun cell member => by rw [same cell (List.mem_range.mp member)]

omit [Field K] [LinearOrder K] in
lemma attendCall_agree {wrote read : List Cell} {cells : List Nat}
    (agree : AgreeOn (addCells W wrote) c c') :
    AgreeOn (addCells W (attendCall cfg l c wrote read cells x p).wrote)
        (attendCall cfg l c wrote read cells x p).cache
        (attendCall cfg l c' wrote read cells x p).cache ∧
      ((∀ cell ∈ (attendCall cfg l c wrote read cells x p).read,
          addCells W (attendCall cfg l c wrote read cells x p).wrote cell = true) →
        (attendCall cfg l c wrote read cells x p).rows =
            (attendCall cfg l c' wrote read cells x p).rows ∧
          (attendCall cfg l c wrote read cells x p).out =
            (attendCall cfg l c' wrote read cells x p).out) := by
  have next := agree.writeKv (p % cfg.windowSize) (l.kvRow x p)
  rw [← addCells_append] at next
  refine ⟨next, fun written => ?_⟩
  have rows : (attendCall cfg l c wrote read cells x p).rows =
      (attendCall cfg l c' wrote read cells x p).rows := by
    refine congrArg (fun rows : List (Row K) => (rows : Multiset (Row K)))
      (List.map_congr_left fun slot member => next.kv slot (written _ ?_))
    exact List.mem_append_right _ (List.mem_map_of_mem member)
  exact ⟨rows, congrArg (l.block x p) rows⟩

lemma decodeCall_agree (cfg : EngineConfig) (expo : K → K) (l : Layer X K) (x : X) (p : Nat)
    (agree : AgreeOn W c c') :
    (decodeCall cfg expo l c x p).wrote = (decodeCall cfg expo l c' x p).wrote ∧
      AgreeOn (addCells W (decodeCall cfg expo l c x p).wrote)
        (decodeCall cfg expo l c x p).cache (decodeCall cfg expo l c' x p).cache ∧
      ((∀ cell ∈ (decodeCall cfg expo l c x p).read,
          addCells W (decodeCall cfg expo l c x p).wrote cell = true) →
        (decodeCall cfg expo l c x p).out = (decodeCall cfg expo l c' x p).out) := by
  obtain ⟨wrote, compressed⟩ := runCompressor_agree agree
  by_cases indexes : l.indexes ∧ 0 < compressedReady l.toLayerConfig p
  · obtain ⟨wroteIndexer, indexed⟩ := feedIndexer_agree compressed
    rw [← addCells_append] at indexed
    rw [decodeCall_indexed indexes, decodeCall_indexed indexes, ← wrote, ← wroteIndexer]
    refine ⟨rfl, (attendCall_agree indexed).1, fun written => ?_⟩
    -- the indexer cells are among what is read, and the attention writes none of them
    have cells : selectCells cfg l
        (feedIndexer expo l (runCompressor cfg expo l c x p).1 x p).1 x p
        (compressedReady l.toLayerConfig p) = selectCells cfg l
        (feedIndexer expo l (runCompressor cfg expo l c' x p).1 x p).1 x p
        (compressedReady l.toLayerConfig p) := by
      refine selectCells_agree fun cell lt => indexed.indexer cell ?_
      have here := written (.indexer cell)
        (List.mem_append_left _ (List.mem_map_of_mem (List.mem_range.mpr lt)))
      rcases addCells_iff.mp here with old | new
      · exact addCells_iff.mpr (Or.inl old)
      · rcases List.mem_append.mp new with early | late
        · exact addCells_iff.mpr (Or.inr early)
        · cases List.mem_singleton.mp late
    rw [← cells]
    exact ((attendCall_agree indexed).2 written).2
  · rw [decodeCall_plain indexes, decodeCall_plain indexes, ← wrote]
    obtain ⟨next, attended⟩ := attendCall_agree compressed
    exact ⟨rfl, next, fun written => (attended written).2⟩

/-! ## Which cells a decoded token writes and reads -/

lemma mem_windowSlots {slot : Nat} (member : slot ∈ windowSlots cfg p) :
    ∃ q, q ≤ p ∧ slot = q % cfg.windowSize := by
  obtain ⟨i, here, rfl⟩ := List.mem_map.mp member
  have lt := List.mem_range.mp here
  exact ⟨p + 1 - min (p + 1) cfg.windowSize + i, by omega, rfl⟩

lemma decodeCall_read {cell : Cell} (member : cell ∈ (decodeCall cfg expo l c x p).read) :
    (∃ q, q ≤ p ∧ cell = .kv (q % cfg.windowSize)) ∨
      ∃ k < compressedReady l.toLayerConfig p,
        cell = .kv (cfg.windowSize + k) ∨ (l.indexes ∧ cell = .indexer k) := by
  have slots : ∀ {cells : List Nat}, (∀ k ∈ cells, k < compressedReady l.toLayerConfig p) →
      cell ∈ (windowSlots cfg p ++ cells.map (cfg.windowSize + ·)).map Cell.kv →
      (∃ q, q ≤ p ∧ cell = .kv (q % cfg.windowSize)) ∨
        ∃ k < compressedReady l.toLayerConfig p,
          cell = .kv (cfg.windowSize + k) ∨ (l.indexes ∧ cell = .indexer k) := by
    intro cells few member
    obtain ⟨slot, here, rfl⟩ := List.mem_map.mp member
    rcases List.mem_append.mp here with window | compressed
    · obtain ⟨q, le, rfl⟩ := mem_windowSlots window
      exact Or.inl ⟨q, le, rfl⟩
    · obtain ⟨k, inside, rfl⟩ := List.mem_map.mp compressed
      exact Or.inr ⟨k, few k inside, Or.inl rfl⟩
  by_cases indexes : l.indexes ∧ 0 < compressedReady l.toLayerConfig p
  · rw [decodeCall_indexed indexes] at member
    rcases List.mem_append.mp member with indexed | attended
    · obtain ⟨k, inside, rfl⟩ := List.mem_map.mp indexed
      exact Or.inr ⟨k, List.mem_range.mp inside, Or.inr ⟨indexes.1, rfl⟩⟩
    · refine slots (fun k selected => ?_) attended
      have few : min (compressedReady l.toLayerConfig p) (max 1 cfg.indexTopk) ≤
          ((List.range (compressedReady l.toLayerConfig p)).map fun cell => l.indexScore x p
            ((feedIndexer expo l (runCompressor cfg expo l c x p).1 x p).1.indexerKv cell)).length :=
        by simp
      have lt := (TopK.repeatedMax K).lt_length few selected
      simpa using lt
  · rw [decodeCall_plain indexes] at member
    rcases List.mem_append.mp member with none_ | attended
    · exact absurd none_ List.not_mem_nil
    · refine slots (fun k inside => ?_) attended
      exact lt_of_lt_of_le (List.mem_range.mp inside) (Nat.min_le_left _ _)

lemma decodeCall_wrote_slot :
    Cell.kv (p % cfg.windowSize) ∈ (decodeCall cfg expo l c x p).wrote := by
  by_cases indexes : l.indexes ∧ 0 < compressedReady l.toLayerConfig p
  · rw [decodeCall_indexed indexes]
    exact List.mem_append_right _ (List.mem_singleton_self _)
  · rw [decodeCall_plain indexes]
    exact List.mem_append_right _ (List.mem_singleton_self _)

omit [LinearOrder K] in
lemma runCompressor_wrote : (runCompressor cfg expo l c x p).2 =
    if l.compresses ∧ (p + 1) % l.compressRatio = 0 ∧
        cfg.windowSize + p / l.compressRatio < cfg.capacity l.toLayerConfig
      then [.kv (cfg.windowSize + p / l.compressRatio)] else [] := by
  by_cases compresses : l.compresses
  · simp only [runCompressor, compresses, if_true, true_and, DeviceCompressor.feed]
    by_cases full : (p + 1) % l.compressRatio = 0
    · simp only [full, if_true, true_and]
      split
      · rfl
      · rfl
    · simp only [full, if_false, false_and]
  · rw [runCompressor_idle compresses, if_neg fun all => compresses all.1]

omit [LinearOrder K] in
lemma feedIndexer_wrote : (feedIndexer expo l c x p).2 =
    if (p + 1) % 4 = 0 then [.indexer (p / 4)] else [] := by
  by_cases full : (p + 1) % 4 = 0
  · simp only [feedIndexer, DeviceCompressor.feed, full, if_true]
  · simp only [feedIndexer, DeviceCompressor.feed, full, if_false]

end Decode

/-! ## The states of a layer in two runs -/

/-- Every read of a request of `n` prompt tokens and `m` decode steps finds a cell of its own. -/
def OwnReads (l : LayerConfig) (n m : Nat) : Prop :=
  l.compressRatio = 0 ∨ m = 0 ∨ n + m < l.compressRatio ∨ (l.compresses ∧ n < l.compressRatio)

/-- Two states of a layer that agree on what has been written since the reset, after `p` tokens
of which `n` were the prompt's. -/
structure Own (cfg : EngineConfig) (l : LayerConfig) (n p : Nat) (s s' : LayerState K) : Prop where
  written : s.written = s'.written
  agree : AgreeOn s.written s.cache s'.cache
  stale : s.stale = false
  window : ∀ q < p, s.written (.kv (q % cfg.windowSize)) = true
  due : l.compresses → n < l.compressRatio → ∀ k < p / l.compressRatio,
    s.written (.kv (cfg.windowSize + k)) = true ∧
      (l.indexes → s.written (.indexer k) = true)

lemma lt_succ_div {ratio k p : Nat} (lt : k < (p + 1) / ratio) :
    k < p / ratio ∨ (k = p / ratio ∧ (p + 1) % ratio = 0) := by
  rw [Nat.succ_div] at lt
  by_cases full : ratio ∣ p + 1
  · rw [if_pos full] at lt
    rcases Nat.lt_succ_iff_lt_or_eq.mp lt with less | eq
    · exact Or.inl less
    · exact Or.inr ⟨eq, Nat.mod_eq_zero_of_dvd full⟩
  · rw [if_neg full] at lt
    exact Or.inl lt

section Own

variable [Field K] [LinearOrder K] {cfg : EngineConfig} {expo : K → K} {l : Layer X K}
  {s s' : LayerState K} {n m p : Nat}

omit [Field K] [LinearOrder K] in
lemma cell_lt_capacity {l : LayerConfig} (ratio_pos : 0 < l.compressRatio)
    (fits : p < cfg.maxContext) :
    cfg.windowSize + p / l.compressRatio < cfg.capacity l := by
  rw [EngineConfig.capacity, if_neg ratio_pos.ne']
  refine Nat.add_lt_add_left ?_ _
  rw [← Nat.succ_le_iff, Nat.le_div_iff_mul_le ratio_pos, Nat.succ_mul]
  have := Nat.div_mul_le_self p l.compressRatio
  omega

lemma decodeCall_wrote_due (expo : K → K) (c : LayerCache K) (x : X) (compresses : l.compresses)
    (full : (p + 1) % l.compressRatio = 0) (fits : p < cfg.maxContext) :
    Cell.kv (cfg.windowSize + p / l.compressRatio) ∈ (decodeCall cfg expo l c x p).wrote ∧
      (l.indexes → Cell.indexer (p / l.compressRatio) ∈ (decodeCall cfg expo l c x p).wrote) := by
  have wrote : Cell.kv (cfg.windowSize + p / l.compressRatio) ∈
      (runCompressor cfg expo l c x p).2 := by
    rw [runCompressor_wrote, if_pos ⟨compresses, full, cell_lt_capacity compresses.1 fits⟩]
    exact List.mem_singleton_self _
  by_cases indexes : l.indexes ∧ 0 < compressedReady l.toLayerConfig p
  · rw [decodeCall_indexed indexes]
    refine ⟨List.mem_append_left _ (List.mem_append_left _ wrote), fun _ => ?_⟩
    refine List.mem_append_left _ (List.mem_append_right _ ?_)
    rw [feedIndexer_wrote, ← indexes.1.1, if_pos full]
    exact List.mem_singleton_self _
  · rw [decodeCall_plain indexes]
    refine ⟨List.mem_append_left _ wrote, fun here => absurd ⟨here, ?_⟩ indexes⟩
    rw [compressedReady, if_neg compresses.1.ne']
    refine Nat.div_pos (Nat.le_of_dvd (Nat.succ_pos p) (Nat.dvd_of_mod_eq_zero full)) compresses.1

lemma Own.reads_written (expo : K → K) (own : Own cfg l.toLayerConfig n p s s') (x : X)
    (reads : OwnReads l.toLayerConfig n m) (ge : n ≤ p) (lt : p < n + m)
    (fits : n + m ≤ cfg.maxContext) :
    ∀ cell ∈ (decodeCall cfg expo l s.cache x p).read,
      addCells s.written (decodeCall cfg expo l s.cache x p).wrote cell = true := by
  intro cell member
  rw [addCells_iff]
  rcases decodeCall_read member with ⟨q, le, rfl⟩ | ⟨k, due, here⟩
  · rcases Nat.lt_or_eq_of_le le with older | rfl
    · exact Or.inl (own.window q older)
    · exact Or.inr decodeCall_wrote_slot
  · have ratio_pos : 0 < l.compressRatio := by
      rw [Nat.pos_iff_ne_zero]
      intro zero
      rw [compressedReady, if_pos zero] at due
      exact absurd due (Nat.not_lt_zero k)
    rw [compressedReady, if_neg ratio_pos.ne'] at due
    have short : ¬ n + m < l.compressRatio := by
      intro short
      rw [Nat.div_eq_of_lt (by omega)] at due
      exact absurd due (Nat.not_lt_zero k)
    -- what is left: the layer compresses, and the prompt completes no group
    obtain ⟨compresses, few⟩ : l.compresses ∧ n < l.compressRatio := by
      rcases reads with zero | none_ | short' | both
      · exact absurd zero ratio_pos.ne'
      · omega
      · exact absurd short' short
      · exact both
    rcases lt_succ_div due with older | ⟨rfl, full⟩
    · obtain ⟨kv, indexer⟩ := own.due compresses few k older
      rcases here with rfl | ⟨indexes, rfl⟩
      · exact Or.inl kv
      · exact Or.inl (indexer indexes)
    · obtain ⟨kv, indexer⟩ := decodeCall_wrote_due expo s.cache x compresses full
        (lt_of_lt_of_le lt fits)
      rcases here with rfl | ⟨indexes, rfl⟩
      · exact Or.inr kv
      · exact Or.inr (indexer indexes)

lemma Own.decode (expo : K → K) (own : Own cfg l.toLayerConfig n p s s') (x : X)
    (reads : OwnReads l.toLayerConfig n m) (ge : n ≤ p) (lt : p < n + m)
    (fits : n + m ≤ cfg.maxContext) :
    Own cfg l.toLayerConfig n (p + 1) (decodeLayer cfg expo l s p x).1
        (decodeLayer cfg expo l s' p x).1 ∧
      (decodeLayer cfg expo l s p x).2 = (decodeLayer cfg expo l s' p x).2 := by
  have read := own.reads_written expo x reads ge lt fits
  obtain ⟨wrote, next, out⟩ := decodeCall_agree cfg expo l x p own.agree
  refine ⟨⟨?_, next, ?_, ?_, ?_⟩, out read⟩
  · exact congrArg₂ addCells own.written wrote
  · have none_ : (decodeCall cfg expo l s.cache x p).read.any (fun cell =>
        !addCells s.written (decodeCall cfg expo l s.cache x p).wrote cell) = false := by
      rw [List.any_eq_false]
      intro cell member
      rw [read cell member]
      decide
    exact (congrArg₂ or own.stale none_ : _)
  · intro q here
    refine addCells_iff.mpr ?_
    rcases Nat.lt_succ_iff_lt_or_eq.mp here with older | rfl
    · exact Or.inl (own.window q older)
    · exact Or.inr decodeCall_wrote_slot
  · intro compresses few k here
    rcases lt_succ_div here with older | ⟨rfl, full⟩
    · obtain ⟨kv, indexer⟩ := own.due compresses few k older
      exact ⟨addCells_iff.mpr (Or.inl kv), fun indexes => addCells_iff.mpr (Or.inl (indexer indexes))⟩
    · obtain ⟨kv, indexer⟩ := decodeCall_wrote_due expo s.cache x compresses full
        (lt_of_lt_of_le lt fits)
      exact ⟨addCells_iff.mpr (Or.inr kv), fun indexes => addCells_iff.mpr (Or.inr (indexer indexes))⟩

/-! ## Prefill in two runs -/

omit [Field K] [LinearOrder K] in
lemma none_due {ratio k : Nat} (le : p ≤ n) (few : n < ratio) (lt : k < p / ratio) : False := by
  rw [Nat.div_eq_of_lt (lt_of_le_of_lt le few)] at lt
  exact absurd lt (Nat.not_lt_zero k)

omit [LinearOrder K] in
lemma Own.reset (l : LayerConfig) (s s' : LayerState K) : Own cfg l n 0 s.reset s'.reset where
  written := rfl
  agree := ⟨fun _ no => (by cases no), fun _ no => (by cases no), rfl, rfl⟩
  stale := rfl
  window := fun q lt => absurd lt (Nat.not_lt_zero q)
  due := fun _ few _ lt => (none_due (Nat.zero_le n) few lt).elim

omit [Field K] [LinearOrder K] in
lemma exists_position {slot : Nat} (lt : slot < min (p + 1) cfg.windowSize) :
    ∃ q, q ≤ p ∧ slot = q % cfg.windowSize := by
  have member : slot ∈ windowSlots cfg p :=
    (slots_perm cfg.windowSize_pos p).mem_iff.mpr (List.mem_range.mpr lt)
  exact mem_windowSlots member

omit [Field K] [LinearOrder K] in
lemma Own.token (own : Own cfg l.toLayerConfig n p s s') (x : X) (lt : p < n) :
    Own cfg l.toLayerConfig n (p + 1) (prefillToken cfg l s p x).1 (prefillToken cfg l s' p x).1 ∧
      (prefillToken cfg l s p x).2 = (prefillToken cfg l s' p x).2 := by
  have next := own.agree.writeKv (p % cfg.windowSize) (l.kvRow x p)
  have read : ∀ cell ∈ (prefillCall cfg l s.cache x p).read,
      addCells s.written [.kv (p % cfg.windowSize)] cell = true := by
    intro cell member
    obtain ⟨slot, here, rfl⟩ := List.mem_map.mp member
    have inside := lt_of_lt_of_le (List.mem_range.mp here) (Nat.min_le_right _ _)
    obtain ⟨q, le, rfl⟩ := exists_position inside
    refine addCells_iff.mpr ?_
    rcases Nat.lt_or_eq_of_le le with older | rfl
    · exact Or.inl (own.window q older)
    · exact Or.inr (List.mem_singleton_self _)
  have rows : (prefillCall cfg l s.cache x p).rows = (prefillCall cfg l s'.cache x p).rows := by
    refine congrArg (fun rows : List (Row K) => (rows : Multiset (Row K)))
      (List.map_congr_left fun slot member => next.kv slot (read _ ?_))
    exact List.mem_map_of_mem member
  refine ⟨⟨?_, next, ?_, ?_, ?_⟩, congrArg (l.block x p) rows⟩
  · exact congrArg (fun W => addCells W [.kv (p % cfg.windowSize)]) own.written
  · have none_ : (prefillCall cfg l s.cache x p).read.any (fun cell =>
        !addCells s.written [.kv (p % cfg.windowSize)] cell) = false := by
      rw [List.any_eq_false]
      intro cell member
      rw [read cell member]
      decide
    exact (congrArg₂ or own.stale none_ : _)
  · intro q here
    refine addCells_iff.mpr ?_
    rcases Nat.lt_succ_iff_lt_or_eq.mp here with older | rfl
    · exact Or.inl (own.window q older)
    · exact Or.inr (List.mem_singleton_self _)
  · exact fun _ few _ here => (none_due lt few here).elim

omit [Field K] [LinearOrder K] in
lemma Own.tokens (own : Own cfg l.toLayerConfig n p s s') (xs : List X) (le : p + xs.length ≤ n) :
    Own cfg l.toLayerConfig n (p + xs.length) (stage (prefillToken cfg) l s p xs).1
        (stage (prefillToken cfg) l s' p xs).1 ∧
      (stage (prefillToken cfg) l s p xs).2 = (stage (prefillToken cfg) l s' p xs).2 := by
  induction xs generalizing s s' p with
  | nil => exact ⟨own, rfl⟩
  | cons x rest ih =>
    rw [List.length_cons] at le
    obtain ⟨next, same⟩ := own.token x (by omega)
    obtain ⟨all, out⟩ := ih next (by omega)
    rw [stage_cons, stage_cons, List.length_cons, Nat.add_comm rest.length, ← Nat.add_assoc, same]
    exact ⟨all, congrArg (List.cons _) out⟩

omit [Field K] [LinearOrder K] in
lemma AgreeOn.copyRows {W : Cell → Bool} {c c' : LayerCache K} (agree : AgreeOn W c c')
    (order : CopyOrder cfg.windowSize) (layer start : Nat) (rows : List (Row K)) :
    AgreeOn (addCells W ((List.range rows.length).map fun i =>
        Cell.kv ((start + i) % cfg.windowSize)))
      { c with
        kv := copyRows cfg.windowSize start (order.winner layer start rows.length) rows c.kv }
      { c' with
        kv := copyRows cfg.windowSize start (order.winner layer start rows.length) rows c'.kv } := by
  refine ⟨fun slot here => ?_, fun cell here => ?_, agree.compressor, agree.indexerCompressor⟩
  · by_cases hit : ∃ r, r < rows.length ∧ (start + r) % cfg.windowSize = slot
    · obtain ⟨r, lt, slot_eq⟩ := hit
      funext col
      obtain ⟨inside, same⟩ := order.winner_slot layer start rows.length slot col r lt slot_eq
      simp only [Engine.copyRows, List.getElem?_eq_getElem inside, same, if_true]
    · have ne : ∀ r, r < rows.length → (start + r) % cfg.windowSize ≠ slot :=
        fun r lt eq => hit ⟨r, lt, eq⟩
      simp only [copyRows_of_ne _ _ _ ne]
      rcases addCells_iff.mp here with old | new
      · exact agree.kv slot old
      · obtain ⟨r, member, eq⟩ := List.mem_map.mp new
        exact absurd (Cell.kv.inj eq) (ne r (List.mem_range.mp member))
  · rcases addCells_iff.mp here with old | new
    · exact agree.indexer cell old
    · obtain ⟨r, _, eq⟩ := List.mem_map.mp new
      cases eq

omit [Field K] [LinearOrder K] in
lemma Own.batch (own : Own cfg l.toLayerConfig n p s s') (order : CopyOrder cfg.windowSize)
    (layer tokens : Nat) (kvNorm : List (Row K)) (xs : List X) (le : p + xs.length ≤ n) :
    Own cfg l.toLayerConfig n (p + xs.length)
      (prefillBatch cfg l (order.winner layer p xs.length) tokens s kvNorm p xs).1
      (prefillBatch cfg l (order.winner layer p xs.length) tokens s' kvNorm p xs).1 := by
  have copied := own.agree.copyRows order layer p (xs.mapIdx fun i x => l.kvRow x (p + i))
  rw [List.length_mapIdx] at copied
  refine ⟨?_, copied, own.stale, ?_, ?_⟩
  · exact congrArg (fun W => addCells W ((List.range xs.length).map fun i =>
      Cell.kv ((p + i) % cfg.windowSize))) own.written
  · intro q here
    refine addCells_iff.mpr ?_
    rcases Nat.lt_or_ge q p with older | newer
    · exact Or.inl (own.window q older)
    · obtain ⟨i, rfl⟩ := Nat.exists_eq_add_of_le newer
      exact Or.inr (List.mem_map.mpr ⟨i, List.mem_range.mpr (by omega), rfl⟩)
  · exact fun _ few _ here => (none_due le few here).elim

omit [Field K] [LinearOrder K] in
lemma Own.chunks (own : Own cfg l.toLayerConfig n 0 s s') (opts : PrefillOptions)
    (order : CopyOrder cfg.windowSize) (layer : Nat) {xs : List X} (len : xs.length = n)
    {size b : Nat} (inside : ∀ a, a < b → a * size < n) :
    Own cfg l.toLayerConfig n (min (b * size) n)
        (prefillChunks cfg opts order layer l s xs size b).1
        (prefillChunks cfg opts order layer l s' xs size b).1 ∧
      (prefillChunks cfg opts order layer l s xs size b).2 =
        (prefillChunks cfg opts order layer l s' xs size b).2 := by
  induction b with
  | zero =>
    rw [Nat.zero_mul, Nat.zero_min]
    exact ⟨own, rfl⟩
  | succ b ih =>
    obtain ⟨before, same⟩ := ih fun a lt => inside a (by omega)
    have lt := inside b (Nat.lt_succ_self b)
    have mono : b * size ≤ (b + 1) * size := Nat.mul_le_mul_right _ (Nat.le_succ b)
    have part : (slice xs (b * size) ((b + 1) * size)).length =
        min ((b + 1) * size) n - b * size := by rw [length_slice, len]
    have top : min ((b + 1) * size) n =
        b * size + (slice xs (b * size) ((b + 1) * size)).length := by omega
    rw [Nat.min_eq_left lt.le] at before
    simp only [prefillChunks, ← same]
    rw [top]
    cases opts.batchedAttn with
    | true => exact ⟨before.batch order layer _ _ _ (by omega), rfl⟩
    | false =>
      obtain ⟨next, out⟩ := before.tokens (slice xs (b * size) ((b + 1) * size)) (by omega)
      exact ⟨next, by simp only [Bool.false_eq_true, if_false, out]⟩

omit [Field K] [LinearOrder K] in
lemma Own.prefill (own : Own cfg l.toLayerConfig n 0 s s') (opts : PrefillOptions) (pos : 0 < n)
    (order : CopyOrder cfg.windowSize) (layer : Nat) {xs : List X} (len : xs.length = n) :
    Own cfg l.toLayerConfig n n (prefillLayer cfg opts order layer l s xs).1
        (prefillLayer cfg opts order layer l s' xs).1 ∧
      (prefillLayer cfg opts order layer l s xs).2 =
        (prefillLayer cfg opts order layer l s' xs).2 := by
  have size_pos := chunkSize_pos opts pos
  obtain ⟨count, parts⟩ := chunk_count pos size_pos
  have few : lastChunk (opts.chunkSize n) n ≤ opts.chunkSize n := Nat.mod_lt _ size_pos
  have next : ((n - 1) / opts.chunkSize n + 1) * opts.chunkSize n =
      (n - 1) / opts.chunkSize n * opts.chunkSize n + opts.chunkSize n := Nat.succ_mul _ _
  have all : min (((n - 1) / opts.chunkSize n + 1) * opts.chunkSize n) n = n := by omega
  obtain ⟨kept, same⟩ := own.chunks opts order layer len fun a lt => chunk_inside pos lt
  rw [all] at kept
  simp only [prefillLayer, len, count]
  exact ⟨kept, congrArg Prod.snd same⟩

end Own

end PocketMoE.Engine
