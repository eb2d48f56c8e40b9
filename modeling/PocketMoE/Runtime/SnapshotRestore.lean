import PocketMoE.Runtime.SnapshotBuffers

/-!
# Restoring a snapshot

`restored_iff`: a restore is all or nothing exactly when its hint is refused or the model still has
every recorded buffer, at least as large. `applyBuffers_spec` says what every buffer holds
afterwards: the others are skipped, and the restore returns its position all the same.
`restore_captured`: what was captured of one model is restored to every model whose buffers have the
sizes that the captured ones had.
-/

namespace PocketMoE.Runtime.PrefixSnapshotCache
open PocketMoE.Lib

variable {α φ K : Type} [DecidableEq K]

/-- The tensor of a layer of a model. -/
def bufferOf (layers : List (Option (LayerModule α φ))) (idx : Nat) (name : BufferName) :
    Option (Buffer α) :=
  layers[idx]?.join.bind fun layer => resolveBuffer layer name

/-- A tensor of a model. -/
def ModelModule.buffer (model : ModelModule α φ) (idx : Nat) (name : BufferName) :
    Option (Buffer α) :=
  model.layers.bind fun layers => bufferOf layers idx name

/-- The snapshot has recorded this tensor. -/
def Records (entry : Snapshot α) (idx : Nat) (name : BufferName) (src : Buffer α) : Prop :=
  ∃ snapshot, entry.buffers.get idx = some snapshot ∧ snapshot.get name = some src

/-- The model has a tensor for a recorded one. -/
def Applicable (model : ModelModule α φ) (idx : Nat) (name : BufferName) (src : Buffer α) : Prop :=
  ∃ dst, model.buffer idx name = some dst ∧ src.Applies dst

/-- The model has what was recorded. -/
def Holds (model : ModelModule α φ) (idx : Nat) (name : BufferName) (src : Buffer α) : Prop :=
  ∃ dst, model.buffer idx name = some dst ∧ src.Applies dst ∧
    ∀ index, Buffer.Inside src.shape index → dst.elem index = src.elem index

/-- The restore of an entry is all or nothing. -/
structure AllOrNothing (d : OrderedDict K (Snapshot α)) (model : ModelModule α φ)
    (hint : Option (SnapshotHint K)) (tokenIds : List Nat) (entry : Snapshot α) : Prop where
  all : ∀ pos d' model', restoreModel d model hint tokenIds = .ok (pos, d', model') → 0 < pos →
    ∀ idx name src, Records entry idx name src → Holds model' idx name src
  nothing : (∃ idx name src, Records entry idx name src ∧ ¬ Applicable model idx name src) →
    ∃ d' model', restoreModel d model hint tokenIds = .ok (0, d', model')

/-! ## Tensors of a layer -/

lemma tensor?_map (a : Attr α) (f : Buffer α → Buffer α) : (a.map f).tensor? = a.tensor?.map f := by
  cases a with
  | absent => rfl
  | none => rfl
  | tensor t => rfl

lemma resolveBuffer_modify (layer : LayerModule α φ) (name other : BufferName)
    (f : Buffer α → Buffer α) : resolveBuffer (layer.modify name f) other =
      if other = name then (resolveBuffer layer other).map f else resolveBuffer layer other := by
  obtain ⟨attn⟩ := layer
  cases attn with
  | none => split_ifs <;> rfl
  | some attn =>
    obtain ⟨kvCache, windowSize, ratio, compressor, indexer, freqsCis⟩ := attn
    rcases eq_or_ne other name with rfl | ne
    · rw [if_pos rfl]
      cases other with
      | kvCache => exact tensor?_map ..
      | compressorKvState =>
        cases compressor with
        | none => rfl
        | some c => exact tensor?_map ..
      | compressorScoreState =>
        cases compressor with
        | none => rfl
        | some c => exact tensor?_map ..
      | indexerKvCache =>
        cases indexer with
        | none => rfl
        | some i => exact tensor?_map ..
      | indexerCompressorKvState =>
        cases indexer with
        | none => rfl
        | some i =>
          obtain ⟨kvCache, ratio, compressor, freqsCis⟩ := i
          cases compressor with
          | none => rfl
          | some c => exact tensor?_map ..
      | indexerCompressorScoreState =>
        cases indexer with
        | none => rfl
        | some i =>
          obtain ⟨kvCache, ratio, compressor, freqsCis⟩ := i
          cases compressor with
          | none => rfl
          | some c => exact tensor?_map ..
    · rw [if_neg ne]
      -- another field, or the same module with another field
      cases compressor <;> cases indexer with
      | none => cases name <;> cases other <;> first | exact absurd rfl ne | rfl
      | some i =>
        obtain ⟨kvCache, ratio, inner, freqsCis⟩ := i
        cases inner <;> cases name <;> cases other <;> first | exact absurd rfl ne | rfl

lemma resolveBuffer_applyBuffer (layer : LayerModule α φ) (entry : BufferName × Buffer α)
    (name : BufferName) : resolveBuffer (applyBuffer layer entry) name =
      if name = entry.1 then (resolveBuffer layer name).map entry.2.overlay
      else resolveBuffer layer name := by
  unfold applyBuffer
  cases found : resolveBuffer layer entry.1 with
  | none =>
    dsimp only
    split_ifs with here
    · rw [here, found]
      rfl
    · rfl
  | some dst =>
    dsimp only
    split_ifs with applies here here
    · rw [resolveBuffer_modify, if_pos here, here, found, Option.map_some, Option.map_some,
        Buffer.overlay, if_pos applies]
    · rw [resolveBuffer_modify, if_neg here]
    · rw [here, found, Option.map_some, Buffer.overlay, if_neg applies]
    · rfl

lemma resolveBuffer_foldl (layer : LayerModule α φ) (snapshot : OrderedDict BufferName (Buffer α))
    (name : BufferName) : resolveBuffer (snapshot.entries.foldl applyBuffer layer) name =
      (snapshot.get name).elim id (fun src => Option.map src.overlay) (resolveBuffer layer name) := by
  refine OrderedDict.foldlM_view (ε := Empty) resolveBuffer _
    (fun layer entry => pure (applyBuffer layer entry)) ?_ ?_ snapshot
    (List.foldlM_pure ..) name
  · rintro s e t step
    rw [pure_ok.mp step, resolveBuffer_applyBuffer, if_pos rfl]
  · rintro s e t key step ne
    rw [pure_ok.mp step, resolveBuffer_applyBuffer, if_neg ne]

lemma refreshCompressor_states {attn : AttentionModule α φ} {c c' : CompressorModule α φ}
    (run : refreshCompressor attn c = .ok c') :
    c'.kvState = c.kvState ∧ c'.scoreState = c.scoreState := by
  unfold refreshCompressor at run
  split_ifs at run
  · rw [pure_ok.mp run]
    exact ⟨rfl, rfl⟩
  · cases kv : attn.kvCache with
    | absent => simp [kv] at run
    | none => simp [kv] at run
    | tensor t =>
      simp only [kv] at run
      split_ifs at run
      rw [pure_ok.mp run]
      exact ⟨rfl, rfl⟩

lemma refreshIndexerCompressor_states {indexer : IndexerModule α φ} {c c' : CompressorModule α φ}
    (run : refreshIndexerCompressor indexer c = .ok c') :
    c'.kvState = c.kvState ∧ c'.scoreState = c.scoreState := by
  unfold refreshIndexerCompressor at run
  split_ifs at run
  · rw [pure_ok.mp run]
    exact ⟨rfl, rfl⟩
  · cases kv : indexer.kvCache with
    | absent => simp [kv] at run
    | none =>
      simp only [kv] at run
      rw [pure_ok.mp run]
      exact ⟨rfl, rfl⟩
    | tensor t =>
      simp only [kv] at run
      rw [pure_ok.mp run]
      exact ⟨rfl, rfl⟩

lemma onSome_bind {β γ : Type} {step : β → Except AliasError β} {view : β → Option γ}
    (keeps : ∀ {b b'}, step b = .ok b' → view b' = view b) {o o' : Option β}
    (run : onSome step o = .ok o') : o'.bind view = o.bind view := by
  cases o with
  | none =>
    rw [pure_ok.mp run]
  | some b =>
    obtain ⟨b', first, last⟩ := bind_ok.mp run
    rw [pure_ok.mp last]
    exact keeps first

lemma refreshIndexer_kept {attn : AttentionModule α φ} {i i' : IndexerModule α φ}
    (run : refreshIndexer attn i = .ok i') : i'.kvCache = i.kvCache ∧
      ∀ view : CompressorModule α φ → Option (Buffer α),
        (∀ {c c' : CompressorModule α φ}, c'.kvState = c.kvState ∧ c'.scoreState = c.scoreState →
          view c' = view c) → i'.compressor.bind view = i.compressor.bind view := by
  obtain ⟨compressor, first, last⟩ := bind_ok.mp run
  rw [pure_ok.mp last]
  refine ⟨rfl, fun view keeps => ?_⟩
  exact onSome_bind (fun run => keeps (refreshIndexerCompressor_states run)) first

lemma resolveBuffer_refreshAliases {layer layer' : LayerModule α φ}
    (run : refreshAliases layer = .ok layer') (name : BufferName) :
    resolveBuffer layer' name = resolveBuffer layer name := by
  obtain ⟨attn⟩ := layer
  cases attn with
  | none => rw [pure_ok.mp run]
  | some attn =>
    obtain ⟨compressor, first, rest⟩ := bind_ok.mp run
    obtain ⟨indexer, second, last⟩ := bind_ok.mp rest
    rw [pure_ok.mp last]
    cases name with
    | kvCache => rfl
    | compressorKvState =>
      exact onSome_bind (fun run => by rw [(refreshCompressor_states run).1]) first
    | compressorScoreState =>
      exact onSome_bind (fun run => by rw [(refreshCompressor_states run).2]) first
    | indexerKvCache =>
      exact onSome_bind (fun run => by rw [(refreshIndexer_kept run).1]) second
    | indexerCompressorKvState =>
      exact onSome_bind (fun run => (refreshIndexer_kept run).2 _ fun same => by rw [same.1]) second
    | indexerCompressorScoreState =>
      exact onSome_bind (fun run => (refreshIndexer_kept run).2 _ fun same => by rw [same.2]) second

/-! ## Layers of a model -/

lemma bufferOf_applyLayer {layers layers' : List (Option (LayerModule α φ))}
    {entry : Nat × OrderedDict BufferName (Buffer α)} (run : applyLayer layers entry = .ok layers')
    (idx : Nat) (name : BufferName) : bufferOf layers' idx name =
      if idx = entry.1 then
        (entry.2.get name).elim id (fun src => Option.map src.overlay) (bufferOf layers idx name)
      else bufferOf layers idx name := by
  -- where there is no layer there is nothing to change
  have nothing : ∀ (o : Option (Buffer α)),
      o.elim id (fun src => Option.map src.overlay) (none : Option (Buffer α)) = none := by
    intro o
    cases o with
    | none => rfl
    | some src => rfl
  unfold applyLayer at run
  cases found : layers[entry.1]? with
  | none =>
    simp only [found] at run
    rw [pure_ok.mp run]
    split_ifs with here
    · rw [bufferOf, here, found]
      exact (nothing _).symm
    · rfl
  | some layer =>
    cases layer with
    | none =>
      simp only [found] at run
      rw [pure_ok.mp run]
      split_ifs with here
      · rw [bufferOf, here, found]
        exact (nothing _).symm
      · rfl
    | some layer =>
      simp only [found] at run
      obtain ⟨layer', refreshed, last⟩ := bind_ok.mp run
      rw [pure_ok.mp last]
      split_ifs with here
      · have inside : entry.1 < layers.length := (List.getElem?_eq_some_iff.mp found).1
        rw [bufferOf, bufferOf, here, List.getElem?_set_self inside, found]
        show resolveBuffer layer' name = _
        rw [resolveBuffer_refreshAliases refreshed, resolveBuffer_foldl]
        rfl
      · rw [bufferOf, bufferOf, List.getElem?_set_ne (Ne.symm here)]

/-- What every tensor holds after the buffers of a snapshot have been applied. -/
theorem applyBuffers_spec {model model' : ModelModule α φ} {buffers : Buffers α}
    (run : applyBuffers model buffers = .ok model') (idx : Nat) (name : BufferName) :
    model'.buffer idx name = ((buffers.get idx).bind fun snapshot => snapshot.get name).elim id
      (fun src => Option.map src.overlay) (model.buffer idx name) := by
  obtain ⟨layers⟩ := model
  cases layers with
  | none =>
    rw [pure_ok.mp run]
    cases (buffers.get idx).bind fun snapshot => snapshot.get name with
    | none => rfl
    | some src => rfl
  | some layers =>
    obtain ⟨layers', applied, last⟩ := bind_ok.mp run
    rw [pure_ok.mp last]
    have after := OrderedDict.foldlM_view bufferOf
      (fun (snapshot : OrderedDict BufferName (Buffer α)) at_ name =>
        (snapshot.get name).elim id (fun src => Option.map src.overlay) (at_ name)) _
      (fun run => funext fun name => by rw [bufferOf_applyLayer run, if_pos rfl])
      (fun run ne => funext fun name => by rw [bufferOf_applyLayer run, if_neg ne])
      buffers applied idx
    show bufferOf layers' idx name = _
    rw [after]
    cases buffers.get idx with
    | none => rfl
    | some snapshot => rfl

/-! ## Restores -/

variable {d d' : OrderedDict K (Snapshot α)} {model model' : ModelModule α φ}
  {hint : Option (SnapshotHint K)} {named : SnapshotHint K} {tokenIds : List Nat} {key : K}
  {entry : Snapshot α} {pos : Nat}

/-- The entries without their buffers. -/
def heads (d : OrderedDict K (Snapshot α)) : OrderedDict K SnapshotEntry :=
  d.mapValues Snapshot.toSnapshotEntry

/-- The position, and the entries after it, are those of `restore`. -/
theorem restoreModel_refines
    (run : restoreModel d model hint tokenIds = .ok (pos, d', model')) :
    restore (heads d) hint tokenIds = (pos, heads d') := by
  -- the call returns at once
  have refused : ∀ {d' : OrderedDict K (Snapshot α)} {model' : ModelModule α φ},
      (pure (0, d, model) : Except AliasError _) = .ok (pos, d', model') →
        (0, heads d) = (pos, heads d') := by
    intro d' model' eq
    obtain ⟨rfl, rfl, rfl⟩ : pos = 0 ∧ d' = d ∧ model' = model := by simpa using pure_ok.mp eq
    rfl
  unfold restoreModel hinted at run
  unfold restore
  cases hint with
  | none => exact refused run
  | some named =>
    cases keyed : named.matchKey with
    | none =>
      simp only [keyed] at run ⊢
      exact refused run
    | some key =>
      simp only [keyed, heads, OrderedDict.get_mapValues] at run ⊢
      cases found : d.get key with
      | none =>
        simp only [found] at run ⊢
        rw [Option.map_none, ite_self]
        exact refused run
      | some entry =>
        simp only [found, Option.map_some] at run ⊢
        change (if Accepts named tokenIds entry then _ else _) = _ at run
        split_ifs at run with accepts
        · obtain ⟨positive, same, proper, prefixes⟩ := accepts
          rw [if_neg positive, if_neg (by
            rintro (other | short | differs)
            · exact other same
            · omega
            · exact differs prefixes)]
          obtain ⟨applied, -, last⟩ := bind_ok.mp run
          obtain ⟨rfl, rfl, rfl⟩ : pos = entry.pos ∧ d' = d.moveToEnd key ∧ model' = applied := by
            simpa using pure_ok.mp last
          rw [OrderedDict.moveToEnd_mapValues]
        · have refuses : named.matchPos = 0 ∨ (entry.pos ≠ named.matchPos ∨
              tokenIds.length ≤ entry.pos ∨ entry.tokenIds ≠ tokenIds.take entry.pos) := by
            by_contra all
            push Not at all
            obtain ⟨positive, same, long, prefixes⟩ := all
            exact accepts ⟨positive, same, by omega, prefixes⟩
          rcases refuses with zero | other
          · rw [if_pos zero]
            exact refused run
          · rw [if_pos other, ite_self]
            exact refused run

lemma restoreModel_pos (found : hinted d hint = some (named, key, entry))
    (run : restoreModel d model hint tokenIds = .ok (pos, d', model')) (positive : 0 < pos) :
    pos = entry.pos ∧ Accepts named tokenIds entry ∧
      applyBuffers model entry.buffers = .ok model' := by
  unfold restoreModel at run
  simp only [found] at run
  split_ifs at run with accepts
  · obtain ⟨applied, first, last⟩ := bind_ok.mp run
    obtain ⟨rfl, rfl, rfl⟩ : pos = entry.pos ∧ d' = d.moveToEnd key ∧ model' = applied := by
      simpa using pure_ok.mp last
    exact ⟨rfl, accepts, first⟩
  · obtain ⟨rfl, -⟩ : pos = 0 ∧ _ := by simpa using pure_ok.mp run
    exact absurd positive (Nat.lt_irrefl 0)

lemma restoreModel_ne_zero (found : hinted d hint = some (named, key, entry))
    (accepts : Accepts named tokenIds entry)
    (run : restoreModel d model hint tokenIds = .ok (pos, d', model')) : 0 < pos := by
  unfold restoreModel at run
  simp only [found, if_pos accepts] at run
  obtain ⟨applied, -, last⟩ := bind_ok.mp run
  have eq : pos = entry.pos := congrArg Prod.fst (pure_ok.mp last)
  rw [eq]
  exact entry.pos_pos

/-- A restore is all or nothing exactly when it is refused or every recorded buffer still applies. -/
theorem restored_iff (d : OrderedDict K (Snapshot α)) (model : ModelModule α φ)
    (hint : Option (SnapshotHint K)) (tokenIds : List Nat)
    (found : hinted d hint = some (named, key, entry)) :
    AllOrNothing d model hint tokenIds entry ↔ (Accepts named tokenIds entry →
      ∀ idx name src, Records entry idx name src → Applicable model idx name src) := by
  constructor
  · intro whole accepts idx name src records
    by_contra no
    obtain ⟨d', model', run⟩ := whole.nothing ⟨idx, name, src, records, no⟩
    exact Nat.lt_irrefl 0 (restoreModel_ne_zero found accepts run)
  · intro applicable
    constructor
    · intro pos d' model' run positive idx name src records
      obtain ⟨-, accepts, applied⟩ := restoreModel_pos found run positive
      obtain ⟨dst, before, applies⟩ := applicable accepts idx name src records
      obtain ⟨snapshot, layer, recorded⟩ := records
      refine ⟨src.copy dst, ?_, applies, fun index inside => if_pos inside⟩
      rw [applyBuffers_spec applied, layer, Option.bind_some, recorded, before]
      show some (src.overlay dst) = _
      rw [Buffer.overlay, if_pos applies]
    · rintro ⟨idx, name, src, records, no⟩
      have refused : ¬ Accepts named tokenIds entry :=
        fun accepts => no (applicable accepts idx name src records)
      refine ⟨d, model, ?_⟩
      simp only [restoreModel, found, if_neg refused]
      rfl

/-- A cache that holds one row of two slots, for the prompt 7. -/
def twoSlots : OrderedDict Unit (Snapshot Nat) where
  entries := [((),
    { pos := 1
      tokenIds := [7]
      length_eq := rfl
      pos_pos := Nat.one_pos
      buffers := ⟨[(0, ⟨[(.kvCache, ⟨[1, 2, 1], fun _ => 5⟩)], List.nodup_singleton _⟩)],
        List.nodup_singleton _⟩ })]
  nodup := List.nodup_singleton _

/-- A model of one layer, whose `kv_cache` has this many slots. -/
def slots (n : Nat) : ModelModule Nat Unit :=
  let attn : AttentionModule Nat Unit :=
    { kvCache := .tensor ⟨[1, n, 1], fun _ => 0⟩
      windowSize := n
      compressRatio := 0
      compressor := none
      indexer := none
      freqsCis := none }
  ⟨some [some ⟨some attn⟩]⟩

/-- The hint of a prompt that starts with 7. -/
def hintOne : SnapshotHint Unit where
  matchKey := some ()
  matchPos := 1
  capturePositions := [1]

/-- The model has one slot left: the restore returns 1 and has written nothing. -/
theorem shrunk_cache : ∃ entry, hinted twoSlots (some hintOne) = some (hintOne, (), entry) ∧
    restoreModel twoSlots (slots 1) (some hintOne) [7, 8] = .ok (1, twoSlots, slots 1) ∧
    ¬ AllOrNothing twoSlots (slots 1) (some hintOne) [7, 8] entry := by
  refine ⟨_, rfl, rfl, fun whole => ?_⟩
  obtain ⟨dst, found, applies, -⟩ := whole.all 1 twoSlots (slots 1) rfl Nat.one_pos 0 .kvCache _
    ⟨_, rfl, rfl⟩
  obtain rfl : ⟨[1, 1, 1], fun _ => 0⟩ = dst := Option.some.inj found
  exact absurd applies (by decide)

/-- Two slots are enough. -/
theorem restored_two : ∃ entry, hinted twoSlots (some hintOne) = some (hintOne, (), entry) ∧
    (AllOrNothing twoSlots (slots 2) (some hintOne) [7, 8] entry ↔
      (Accepts hintOne [7, 8] entry → ∀ idx name src, Records entry idx name src →
        Applicable (slots 2) idx name src)) :=
  ⟨_, rfl, restored_iff twoSlots (slots 2) (some hintOne) [7, 8] rfl⟩

/-- The position, and the order of the entries, of that restore. -/
theorem restoreModel_refines_two :
    restore (heads twoSlots) (some hintOne) [7, 8] = (1, heads twoSlots) := by
  have run : restoreModel twoSlots (slots 2) (some hintOne) [7, 8] = .ok (1, twoSlots, _) := rfl
  exact restoreModel_refines run

/-! ## Captured buffers -/

lemma narrow_applies {t dst : Buffer α} {lens : List Nat} (same : dst.shape = t.shape)
    (le : lens.length ≤ t.shape.length) : (t.narrow lens).Applies dst := by
  unfold Buffer.Applies Buffer.narrow
  rw [same]
  generalize t.shape = shape at le
  clear same
  induction lens generalizing shape with
  | nil =>
    refine ⟨rfl, ?_⟩
    show ¬ (shape.zip shape).any (fun sizes => sizes.1 > sizes.2) = true
    clear le
    induction shape with
    | nil => exact Bool.false_ne_true
    | cons size shape ih => simpa using ih
  | cons len lens ih =>
    cases shape with
    | nil => exact absurd le (Nat.not_succ_le_zero _)
    | cons size shape =>
      obtain ⟨dims, sizes⟩ := ih shape (Nat.le_of_succ_le_succ le)
      constructor
      · simpa using dims
      · have first : min len size ≤ size := Nat.min_le_right ..
        simpa [first] using sizes

lemma snapshotView_applies {name : BufferName} {tensor dst : Buffer α} {pos : Nat}
    {layer : LayerModule α φ} (same : dst.shape = tensor.shape) :
    (snapshotView name tensor pos layer).Applies dst := by
  unfold snapshotView
  split_ifs with flat
  · have whole : tensor.narrow [] = tensor := rfl
    rw [← whole]
    exact narrow_applies same (Nat.zero_le _)
  · have two : ∀ len, [1, len].length ≤ tensor.shape.length := fun _ => Nat.le_of_not_lt flat
    cases name with
    | kvCache => exact narrow_applies same (two _)
    | indexerKvCache => exact narrow_applies same (two _)
    | _ => exact narrow_applies same (Nat.le_of_lt (two 0))

lemma elem_snapshotView (name : BufferName) (tensor : Buffer α) (pos : Nat)
    (layer : LayerModule α φ) : (snapshotView name tensor pos layer).elem = tensor.elem := by
  unfold snapshotView
  split_ifs with flat
  · rfl
  · cases name with
    | _ => rfl

lemma recorded_of_clone {layers : List (Option (LayerModule α φ))} (pos : Nat) {idx : Nat}
    {layer : LayerModule α φ} {name : BufferName} {tensor : Buffer α}
    (here : layers[idx]?.join = some layer) (resolved : resolveBuffer layer name = some tensor) :
    ∃ snapshot, (cloneBuffers ⟨some layers⟩ pos).get idx = some snapshot ∧
      snapshot.get name = some (snapshotView name tensor pos layer) := by
  have listed : (name, tensor) ∈ layerBuffers layer := by
    rw [layerBuffers_eq]
    refine List.mem_filterMap.mpr ⟨name, ?_, by rw [resolved]; rfl⟩
    cases name with
    | _ => decide
  have some_ : (layerBuffers layer).isEmpty = false :=
    List.isEmpty_eq_false_iff_exists_mem.mpr ⟨_, listed⟩
  have cloned : cloneAt layers pos idx = some (idx, cloneLayer layer pos) := by
    rw [cloneAt, here]
    exact if_neg (Bool.eq_false_iff.mp some_)
  have inside : idx < layers.length := by
    refine Nat.lt_of_not_le fun beyond => ?_
    rw [List.getElem?_eq_none beyond] at here
    cases here
  refine ⟨cloneLayer layer pos, OrderedDict.get_eq_some.mpr ?_, OrderedDict.get_eq_some.mpr ?_⟩
  · exact List.mem_filterMap.mpr ⟨idx, List.mem_range.mpr inside, cloned⟩
  · exact List.mem_map.mpr ⟨_, listed, rfl⟩

/-- What was captured of one model is put into another one of the same sizes: what the positions
before the snapshot's had written is as it was in the first model, and nothing else changes. -/
theorem restore_captured {layers : List (Option (LayerModule α φ))}
    (found : hinted d hint = some (named, key, entry))
    (captured : entry.buffers = cloneBuffers ⟨some layers⟩ entry.pos)
    (same : ∀ idx name, (model.buffer idx name).map Buffer.shape =
      (bufferOf layers idx name).map Buffer.shape)
    (run : restoreModel d model hint tokenIds = .ok (pos, d', model')) (positive : 0 < pos) :
    pos = entry.pos ∧ ∀ idx name layer tensor, layers[idx]?.join = some layer →
      resolveBuffer layer name = some tensor → ∃ before after,
        model.buffer idx name = some before ∧ model'.buffer idx name = some after ∧
        after.shape = tensor.shape ∧ ∀ index, after.elem index =
          if Buffer.Inside (snapshotView name tensor pos layer).shape index then tensor.elem index
          else before.elem index := by
  obtain ⟨rfl, -, applied⟩ := restoreModel_pos found run positive
  refine ⟨rfl, fun idx name layer tensor here resolved => ?_⟩
  have there : bufferOf layers idx name = some tensor := by
    rw [bufferOf, here]
    exact resolved
  obtain ⟨before, old, sizes⟩ := Option.map_eq_some_iff.mp
    ((same idx name).trans (congrArg (Option.map Buffer.shape) there))
  obtain ⟨snapshot, recorded, view⟩ := recorded_of_clone entry.pos here resolved
  have applies : (snapshotView name tensor entry.pos layer).Applies before :=
    snapshotView_applies sizes
  refine ⟨before, (snapshotView name tensor entry.pos layer).copy before, old, ?_, sizes,
    fun index => ?_⟩
  · rw [applyBuffers_spec applied, captured, recorded, Option.bind_some, view, old]
    show some (Buffer.overlay _ before) = _
    rw [Buffer.overlay, if_pos applies]
  · show (if _ then (snapshotView name tensor entry.pos layer).elem index else _) = _
    rw [elem_snapshotView]

/-- The snapshot of a model of one layer after the prompt 7. -/
def capturedTwo : Snapshot Nat := ⟨⟨1, [7], rfl, Nat.one_pos⟩, cloneBuffers (slots 2) 1⟩

/-- It is restored to a model of the same sizes. -/
theorem restore_captured_two : ∃ d' model',
    restoreModel ⟨[((), capturedTwo)], List.nodup_singleton _⟩ (slots 2) (some hintOne) [7, 8] =
      .ok (1, d', model') ∧ 1 = capturedTwo.pos ∧
      ∀ idx name layer tensor, ((slots 2).layers.getD [])[idx]?.join = some layer →
        resolveBuffer layer name = some tensor → ∃ before after,
          (slots 2).buffer idx name = some before ∧ model'.buffer idx name = some after ∧
          after.shape = tensor.shape ∧ ∀ index, after.elem index =
            if Buffer.Inside (snapshotView name tensor capturedTwo.pos layer).shape index then
              tensor.elem index
            else before.elem index := by
  have found : hinted ⟨[((), capturedTwo)], List.nodup_singleton _⟩ (some hintOne) =
      some (hintOne, (), capturedTwo) := rfl
  have captured : capturedTwo.buffers = cloneBuffers ⟨some ((slots 2).layers.getD [])⟩
      capturedTwo.pos := rfl
  have run : restoreModel ⟨[((), capturedTwo)], List.nodup_singleton _⟩ (slots 2) (some hintOne)
      [7, 8] = .ok (1, _, _) := rfl
  exact ⟨_, _, run, restore_captured found captured (fun _ _ => rfl) run Nat.one_pos⟩

end PocketMoE.Runtime.PrefixSnapshotCache
