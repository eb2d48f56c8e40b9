import Mathlib.Algebra.Group.Nat.Defs
import Mathlib.Data.List.ProdSigma
import PocketMoE.Lib.OrderedDict

/-!
# The shared arenas of the CPU experts' weights

Model of `SharedCPUMoEWeightArena` and `SharedCPUMoEWeightSet` of `shared_weights.py`: the layout of
the tensors of a rank's experts in its arena, and the tensor that a set of arenas finds for an
expert. `torch.frombuffer` is a parameter, and a tensor that was made once is kept.

The views of an arena do not overlap, and a set finds the view of the rank that owns the expert
(`shared_weights`).
-/

namespace PocketMoE.Backend.SharedWeights
open PocketMoE.Lib

/-- The names of `build_specs`. -/
inductive WeightName where
  | w1Weight
  | w1Scale
  | w2Weight
  | w2Scale
  | w3Weight
  | w3Scale
deriving DecidableEq

/-- The dtypes of the weights and the scales. -/
inductive Dtype where
  | int8
  | float32
deriving DecidableEq

/-- `element_size()` -/
def Dtype.elementSize : Dtype → Nat
  | int8 => 1
  | float32 => 4

/-- `TensorSpec` -/
structure TensorSpec where
  name : WeightName
  shape : List Nat
  dtype : Dtype
deriving DecidableEq

namespace TensorSpec

variable (spec : TensorSpec)

def numel : Nat := spec.shape.prod

def nbytes : Nat := spec.numel * spec.dtype.elementSize

end TensorSpec

/-- `SharedTensorView` -/
structure SharedTensorView where
  spec : TensorSpec
  offset : Nat
deriving DecidableEq

/-- `_align_up`, to 64. -/
def alignUp (value : Nat) : Nat := (value + 64 - 1) / 64 * 64

/-- `_HEADER_STRUCT.size`: the magic and six numbers of 8 bytes. -/
def headerSize : Nat := 8 + 6 * 8

/-- A layer, an expert and a name. -/
abbrev Key := Nat × Nat × WeightName

/-- What the arenas of all ranks are made for. -/
structure ArenaConfig where
  worldSize : Nat
  nLayers : Nat
  nRoutedExperts : Nat
  dim : Nat
  moeInterDim : Nat

namespace ArenaConfig

variable (c : ArenaConfig)

def nLocalExperts : Nat := c.nRoutedExperts / c.worldSize

def expertStart (rank : Nat) : Nat := rank * c.nLocalExperts

def expertEnd (rank : Nat) : Nat := c.expertStart rank + c.nLocalExperts

/-- `build_specs` -/
def buildSpecs : List TensorSpec :=
  [⟨.w1Weight, [c.moeInterDim, c.dim], .int8⟩, ⟨.w1Scale, [c.moeInterDim], .float32⟩,
    ⟨.w2Weight, [c.dim, c.moeInterDim], .int8⟩, ⟨.w2Scale, [c.dim], .float32⟩,
    ⟨.w3Weight, [c.moeInterDim, c.dim], .int8⟩, ⟨.w3Scale, [c.moeInterDim], .float32⟩]

/-- `_layout_entries` -/
def layoutEntries (rank : Nat) : List (Nat × Nat × TensorSpec) :=
  (List.range c.nLayers).flatMap fun layer =>
    (List.range' (c.expertStart rank) c.nLocalExperts).flatMap fun expert =>
      c.buildSpecs.map fun spec => (layer, expert, spec)

end ArenaConfig

/-- The key of an entry. -/
def keyOf (entry : Nat × Nat × TensorSpec) : Key := (entry.1, entry.2.1, entry.2.2.name)

/-- A pass of the loop of `_compute_layout`. -/
def place (state : Nat × OrderedDict Key SharedTensorView) (entry : Nat × Nat × TensorSpec) :
    Nat × OrderedDict Key SharedTensorView :=
  let offset := alignUp state.1
  (offset + entry.2.2.nbytes, state.2.insert (keyOf entry) ⟨entry.2.2, offset⟩)

/-- `_compute_layout` -/
def computeLayout (c : ArenaConfig) (rank : Nat) : Nat × OrderedDict Key SharedTensorView :=
  let placed := (c.layoutEntries rank).foldl place (alignUp headerSize, .empty)
  (alignUp placed.1, placed.2)

/-- The exceptions. -/
inductive WeightError where
  | zeroDivision
  | indivisible
  | noArenas
  | rankIndex
  | unknownTensor (key : Key)
deriving DecidableEq

/-- `SharedCPUMoEWeightArena`, with the tensors that were made. -/
structure Arena (T : Type) where
  rank : Nat
  size : Nat
  views : OrderedDict Key SharedTensorView
  tensors : OrderedDict Key T

/-- `SharedCPUMoEWeightSet` -/
structure WeightSet (T : Type) where
  nLocalExperts : Nat
  arenas : List (Arena T)

section

variable {T : Type} (frombuffer : Nat → SharedTensorView → T)

/-- `SharedCPUMoEWeightArena.__init__` -/
def Arena.init (T : Type) (c : ArenaConfig) (rank : Nat) : Except WeightError (Arena T) :=
  if c.worldSize = 0 then .error .zeroDivision
  else if c.nRoutedExperts % c.worldSize ≠ 0 then .error .indivisible
  else .ok ⟨rank, (computeLayout c rank).1, (computeLayout c rank).2, .empty⟩

/-- `SharedCPUMoEWeightArena.tensor` -/
def Arena.tensor (a : Arena T) (key : Key) : Except WeightError (T × Arena T) :=
  match a.tensors.get key with
  | some cached => .ok (cached, a)
  | none =>
    match a.views.get key with
    | none => .error (.unknownTensor key)
    | some view =>
      let tensor := frombuffer a.rank view
      .ok (tensor, { a with tensors := a.tensors.insert key tensor })

/-- `SharedCPUMoEWeightSet.attach_all` -/
def attachAll (T : Type) (c : ArenaConfig) : Except WeightError (WeightSet T) := do
  let arenas ← (List.range c.worldSize).mapM (Arena.init T c)
  if arenas = [] then .error .noArenas else .ok ⟨c.nLocalExperts, arenas⟩

/-- `SharedCPUMoEWeightSet.tensor` -/
def WeightSet.tensor (s : WeightSet T) (key : Key) : Except WeightError (T × WeightSet T) :=
  if s.nLocalExperts = 0 then .error .zeroDivision
  else
    let rank := key.2.1 / s.nLocalExperts
    match s.arenas[rank]? with
    | none => .error .rankIndex
    | some arena => do
      let (tensor, arena) ← arena.tensor frombuffer key
      return (tensor, { s with arenas := s.arenas.set rank arena })

/-- The set after some calls, where a call that fails changes nothing. -/
def WeightSet.after (s : WeightSet T) : List Key → WeightSet T
  | [] => s
  | key :: keys =>
    match s.tensor frombuffer key with
    | .ok (_, s) => s.after keys
    | .error _ => s.after keys

end

/-! ## The layout -/

lemma le_alignUp (value : Nat) : value ≤ alignUp value := by
  unfold alignUp
  omega

lemma dvd_alignUp (value : Nat) : 64 ∣ alignUp value := Nat.dvd_mul_left ..

/-- A view ends before another one begins. -/
def Before (a b : Key × SharedTensorView) : Prop := a.2.offset + a.2.spec.nbytes ≤ b.2.offset

/-- A view lies between the header and an end, aligned. -/
structure Fits (last : Nat) (view : SharedTensorView) : Prop where
  aligned : 64 ∣ view.offset
  header : headerSize ≤ view.offset
  inside : view.offset + view.spec.nbytes ≤ last

/-- What has been placed of the entries. -/
structure Placed (state : Nat × OrderedDict Key SharedTensorView)
    (done : List (Nat × Nat × TensorSpec)) : Prop where
  start : headerSize ≤ state.1
  keys : state.2.entries.map Prod.fst = done.map keyOf
  specs : ∀ entry ∈ done, ∃ view, state.2.get (keyOf entry) = some view ∧ view.spec = entry.2.2
  fits : ∀ e ∈ state.2.entries, Fits state.1 e.2
  before : state.2.entries.Pairwise Before

lemma Placed.init : Placed (alignUp headerSize, .empty) [] where
  start := le_alignUp _
  keys := rfl
  specs := fun _ member => nomatch member
  fits := fun _ member => nomatch member
  before := .nil

lemma Placed.place {state : Nat × OrderedDict Key SharedTensorView}
    {done : List (Nat × Nat × TensorSpec)} {entry : Nat × Nat × TensorSpec}
    (placed : Placed state done) (fresh : keyOf entry ∉ done.map keyOf) :
    Placed (SharedWeights.place state entry) (done ++ [entry]) := by
  have new : state.2.get (keyOf entry) = none := by
    refine Option.eq_none_iff_forall_ne_some.mpr fun view found => fresh ?_
    rw [← placed.keys]
    exact List.mem_map_of_mem (f := Prod.fst) (OrderedDict.get_eq_some.mp found)
  have up := le_alignUp state.1
  have entries : (state.2.insert (keyOf entry) ⟨entry.2.2, alignUp state.1⟩).entries = _ :=
    OrderedDict.entries_insert new
  have inside (e : Key × SharedTensorView) (member : e ∈ state.2.entries) :
      e.2.offset + e.2.spec.nbytes ≤ alignUp state.1 :=
    Nat.le_trans (placed.fits e member).inside up
  unfold SharedWeights.place
  constructor
  · exact Nat.le_trans (Nat.le_trans placed.start up) (Nat.le_add_right ..)
  · rw [entries, List.map_append, List.map_append, placed.keys]
    rfl
  · intro other member
    rcases List.mem_append.mp member with old | last
    · obtain ⟨view, found, spec⟩ := placed.specs other old
      have ne : keyOf other ≠ keyOf entry := fun same => fresh (same ▸ List.mem_map_of_mem old)
      exact ⟨view, (OrderedDict.get_insert_of_ne ne).trans found, spec⟩
    · obtain rfl := List.mem_singleton.mp last
      exact ⟨_, OrderedDict.get_insert_self .., rfl⟩
  · intro e member
    rw [entries] at member
    rcases List.mem_append.mp member with old | last
    · have fits := placed.fits e old
      exact ⟨fits.aligned, fits.header, Nat.le_trans (inside e old) (Nat.le_add_right ..)⟩
    · obtain rfl := List.mem_singleton.mp last
      exact ⟨dvd_alignUp _, Nat.le_trans placed.start up, Nat.le_refl _⟩
  · rw [entries]
    refine List.pairwise_append.mpr ⟨placed.before, List.pairwise_singleton .., ?_⟩
    intro e member last eq
    rw [List.mem_singleton.mp eq]
    exact inside e member

lemma Placed.foldl {state : Nat × OrderedDict Key SharedTensorView}
    {done rest : List (Nat × Nat × TensorSpec)} (placed : Placed state done)
    (nodup : ((done ++ rest).map keyOf).Nodup) :
    Placed (rest.foldl SharedWeights.place state) (done ++ rest) := by
  induction rest generalizing state done with
  | nil => rwa [List.foldl_nil, List.append_nil]
  | cons entry rest ih =>
    rw [List.append_cons] at nodup ⊢
    have fresh : keyOf entry ∉ done.map keyOf := by
      intro old
      rw [List.map_append, List.map_append, List.nodup_append] at nodup
      have different := (List.nodup_append.mp nodup.1).2.2
      exact different _ old _ (List.mem_singleton_self _) rfl
    exact ih (placed.place fresh) nodup

section

variable {c : ArenaConfig} {rank : Nat}

lemma mem_layoutEntries {entry : Nat × Nat × TensorSpec} :
    entry ∈ c.layoutEntries rank ↔ entry.1 < c.nLayers ∧
      (c.expertStart rank ≤ entry.2.1 ∧ entry.2.1 < c.expertEnd rank) ∧
      entry.2.2 ∈ c.buildSpecs := by
  obtain ⟨layer, expert, spec⟩ := entry
  unfold ArenaConfig.layoutEntries
  simp only [List.mem_flatMap, List.mem_range, List.mem_range'_1, List.mem_map, Prod.mk.injEq]
  constructor
  · rintro ⟨_, layers, _, experts, _, member, rfl, rfl, rfl⟩
    exact ⟨layers, experts, member⟩
  · rintro ⟨layers, experts, member⟩
    exact ⟨layer, layers, expert, experts, spec, member, rfl, rfl, rfl⟩

lemma layoutEntries_nodup : ((c.layoutEntries rank).map keyOf).Nodup := by
  have names : (c.buildSpecs.map TensorSpec.name).Nodup := by
    show [WeightName.w1Weight, .w1Scale, .w2Weight, .w2Scale, .w3Weight, .w3Scale].Nodup
    decide
  have keys : (c.layoutEntries rank).map keyOf = (List.range c.nLayers).product
      ((List.range' (c.expertStart rank) c.nLocalExperts).product
        (c.buildSpecs.map TensorSpec.name)) := by
    unfold ArenaConfig.layoutEntries List.product
    simp only [List.map_flatMap, List.map_map]
    rfl
  rw [keys]
  exact List.nodup_range.product (List.Nodup.product List.nodup_range' names)

lemma computeLayout_placed :
    Placed ((c.layoutEntries rank).foldl place (alignUp headerSize, .empty))
      (c.layoutEntries rank) :=
  Placed.init.foldl layoutEntries_nodup

lemma computeLayout_views :
    (computeLayout c rank).2.entries.Pairwise Before ∧
      ∀ e ∈ (computeLayout c rank).2.entries, Fits (computeLayout c rank).1 e.2 := by
  have placed : Placed _ (c.layoutEntries rank) := computeLayout_placed
  refine ⟨placed.before, fun e member => ?_⟩
  have fits := placed.fits e member
  exact ⟨fits.aligned, fits.header, Nat.le_trans fits.inside (le_alignUp _)⟩

end

/-! ## The owner of an expert -/

section

variable {T : Type} {frombuffer : Nat → SharedTensorView → T} {c : ArenaConfig}

lemma owner_iff {expert rank : Nat} (pos : 0 < c.nLocalExperts) :
    c.expertStart rank ≤ expert ∧ expert < c.expertEnd rank ↔ rank = expert / c.nLocalExperts := by
  unfold ArenaConfig.expertEnd ArenaConfig.expertStart
  rw [← Nat.succ_mul, ← Nat.le_div_iff_mul_le pos, ← Nat.div_lt_iff_lt_mul pos]
  omega

/-- The arenas have the layouts of their ranks, and what is kept was made from their views. -/
structure Attached (frombuffer : Nat → SharedTensorView → T) (c : ArenaConfig)
    (s : WeightSet T) : Prop where
  division : s.nLocalExperts = c.nLocalExperts
  count : s.arenas.length = c.worldSize
  arena : ∀ rank a, s.arenas[rank]? = some a → a.rank = rank ∧
    a.views = (computeLayout c rank).2 ∧ a.size = (computeLayout c rank).1 ∧
    ∀ key tensor, a.tensors.get key = some tensor →
      ∃ view, a.views.get key = some view ∧ tensor = frombuffer rank view

lemma attachAll_eq {s : WeightSet T} (attaches : attachAll T c = .ok s) :
    0 < c.worldSize ∧ c.nRoutedExperts = c.worldSize * c.nLocalExperts ∧
      s = ⟨c.nLocalExperts, (List.range c.worldSize).map fun rank =>
        ⟨rank, (computeLayout c rank).1, (computeLayout c rank).2, .empty⟩⟩ := by
  unfold attachAll at attaches
  obtain ⟨arenas, opened, attaches⟩ := bind_ok.mp attaches
  split_ifs at attaches with empty
  obtain rfl := Except.ok.inj attaches
  have each := mapM_ok.mp opened
  unfold Arena.init at each
  split_ifs at each with zero divides
  · rw [zero] at each
    cases each
    exact absurd rfl empty
  · cases arenas with
    | nil => exact absurd rfl empty
    | cons a arenas =>
      obtain ⟨_, _, first, -, -⟩ := List.forall₂_cons_right_iff.mp each
      cases first
  · refine ⟨Nat.pos_of_ne_zero zero, ?_, ?_⟩
    · rw [ArenaConfig.nLocalExperts, Nat.mul_div_cancel']
      exact Nat.dvd_of_mod_eq_zero (not_not.mp divides)
    · have all := List.forall₂_map_left_iff.mpr (each.imp fun _ _ => Except.ok.inj)
      rw [List.forall₂_eq_eq_eq] at all
      rw [← all]

lemma attachAll_attached {s : WeightSet T} (attaches : attachAll T c = .ok s) :
    Attached frombuffer c s := by
  obtain ⟨-, -, rfl⟩ := attachAll_eq attaches
  refine ⟨rfl, (List.length_map _).trans List.length_range, fun rank a here => ?_⟩
  rw [List.getElem?_map] at here
  obtain ⟨r, inside, rfl⟩ := Option.map_eq_some_iff.mp here
  obtain ⟨lt, same⟩ := List.getElem?_eq_some_iff.mp inside
  obtain rfl := List.getElem_range lt ▸ same
  exact ⟨rfl, rfl, rfl, fun _ _ found => nomatch found⟩

lemma Attached.tensor {s s' : WeightSet T} {key : Key} {tensor : T}
    (attached : Attached frombuffer c s) (finds : s.tensor frombuffer key = .ok (tensor, s')) :
    Attached frombuffer c s' := by
  unfold WeightSet.tensor at finds
  split_ifs at finds
  dsimp only at finds
  split at finds
  next => cases finds
  next arena here =>
    obtain ⟨⟨found, arena'⟩, makes, finds⟩ := bind_ok.mp finds
    cases finds
    obtain ⟨rank, views, size, made⟩ := attached.arena _ _ here
    have kept : arena'.rank = arena.rank ∧ arena'.views = arena.views ∧ arena'.size = arena.size ∧
        ∀ key tensor, arena'.tensors.get key = some tensor →
          ∃ view, arena'.views.get key = some view ∧ tensor = frombuffer arena.rank view := by
      unfold Arena.tensor at makes
      split at makes
      next cached _ =>
        cases makes
        exact ⟨rfl, rfl, rfl, rank ▸ made⟩
      next =>
        split at makes
        next => cases makes
        next view has =>
          cases makes
          refine ⟨rfl, rfl, rfl, fun other tensor found => ?_⟩
          by_cases same : other = key
          · subst same
            rw [OrderedDict.get_insert_self] at found
            exact ⟨view, has, (Option.some.inj found).symm⟩
          · rw [OrderedDict.get_insert_of_ne same] at found
            exact rank ▸ made other tensor found
    refine ⟨attached.division, (List.length_set ..).trans attached.count, fun r a there => ?_⟩
    dsimp only at there
    rw [List.getElem?_set] at there
    split_ifs at there with same inside
    · cases there
      obtain rfl := same
      exact ⟨kept.1.trans rank, kept.2.1.trans views, kept.2.2.1.trans size, rank ▸ kept.2.2.2⟩
    · exact attached.arena r a there

lemma Attached.after {s : WeightSet T} (attached : Attached frombuffer c s) (calls : List Key) :
    Attached frombuffer c (s.after frombuffer calls) := by
  induction calls generalizing s with
  | nil => exact attached
  | cons key calls ih =>
    unfold WeightSet.after
    split
    next found s' finds => exact ih (attached.tensor finds)
    next => exact ih attached

lemma Attached.finds {s : WeightSet T} {key : Key} {rank : Nat} {view : SharedTensorView}
    (attached : Attached frombuffer c s) (pos : 0 < c.nLocalExperts) (lt : rank < c.worldSize)
    (owner : rank = key.2.1 / c.nLocalExperts)
    (has : (computeLayout c rank).2.get key = some view) :
    ∃ s', s.tensor frombuffer key = .ok (frombuffer rank view, s') := by
  have inside : rank < s.arenas.length := attached.count.symm ▸ lt
  have here : s.arenas[key.2.1 / s.nLocalExperts]? = some s.arenas[rank] := by
    rw [attached.division, ← owner]
    exact List.getElem?_eq_getElem inside
  obtain ⟨same, views, -, made⟩ :=
    attached.arena rank s.arenas[rank] (List.getElem?_eq_getElem inside)
  generalize s.arenas[rank] = arena at here same views made
  unfold WeightSet.tensor
  rw [if_neg (attached.division.symm ▸ Nat.pos_iff_ne_zero.mp pos)]
  dsimp only
  rw [here]
  unfold Arena.tensor
  dsimp only
  cases cached : arena.tensors.get key with
  | some tensor =>
    obtain ⟨other, found, rfl⟩ := made key tensor cached
    rw [views, has] at found
    obtain rfl := Option.some.inj found
    exact ⟨_, rfl⟩
  | none =>
    rw [views, has, same]
    exact ⟨_, rfl⟩

end

/-- The views of every arena lie one after the other, aligned, between the header and the end. After
any calls the set finds for every key the tensor of the view that the only owner of the expert has
for the key. -/
theorem shared_weights {T : Type} (frombuffer : Nat → SharedTensorView → T) (c : ArenaConfig)
    (s : WeightSet T) (attaches : attachAll T c = .ok s) :
    s.arenas.length = c.worldSize ∧
    (∀ a ∈ s.arenas, a.views.entries.Pairwise Before ∧ ∀ e ∈ a.views.entries, Fits a.size e.2) ∧
    ∀ (calls : List Key) (layer expert : Nat) (spec : TensorSpec), layer < c.nLayers →
      expert < c.nRoutedExperts → spec ∈ c.buildSpecs →
      ∃ rank a view s', s.arenas[rank]? = some a ∧
        (∀ r, c.expertStart r ≤ expert ∧ expert < c.expertEnd r ↔ r = rank) ∧
        a.views.get (layer, expert, spec.name) = some view ∧ view.spec = spec ∧
        (s.after frombuffer calls).tensor frombuffer (layer, expert, spec.name) =
          .ok (frombuffer rank view, s') := by
  obtain ⟨-, experts, -⟩ := attachAll_eq attaches
  have attached : Attached frombuffer c s := attachAll_attached attaches
  refine ⟨attached.count, ?_, ?_⟩
  · intro a member
    obtain ⟨rank, here⟩ := List.mem_iff_getElem?.mp member
    obtain ⟨-, views, size, -⟩ := attached.arena rank a here
    exact views ▸ size ▸ computeLayout_views
  · intro calls layer expert spec layers lt member
    have pos : 0 < c.nLocalExperts := by
      by_contra none
      rw [Nat.eq_zero_of_not_pos none, Nat.mul_zero] at experts
      omega
    have owned := (owner_iff pos).mpr (rfl : expert / c.nLocalExperts = _)
    have rank_lt : expert / c.nLocalExperts < c.worldSize := by
      rw [Nat.div_lt_iff_lt_mul pos, ← experts]
      exact lt
    have here := List.getElem?_eq_getElem (attached.count.symm ▸ rank_lt :
      expert / c.nLocalExperts < s.arenas.length)
    obtain ⟨-, views, -⟩ := attached.arena _ _ here
    obtain ⟨view, has, same⟩ := computeLayout_placed.specs (layer, expert, spec)
      (mem_layoutEntries.mpr ⟨layers, owned, member⟩)
    obtain ⟨s', finds⟩ := (attached.after calls).finds pos rank_lt rfl has
    exact ⟨_, _, view, s', here, fun r => owner_iff pos, views ▸ has, same, finds⟩

/-- Two ranks with two experts each. -/
def twoRanks : ArenaConfig := ⟨2, 1, 4, 8, 4⟩

/-- The scales of the last expert, after the same call. -/
theorem shared_weights_last :
    ∃ s : WeightSet (Nat × SharedTensorView), attachAll _ twoRanks = .ok s ∧
      ∃ rank a view s', s.arenas[rank]? = some a ∧
        (∀ r, twoRanks.expertStart r ≤ 3 ∧ 3 < twoRanks.expertEnd r ↔ r = rank) ∧
        a.views.get (0, 3, .w2Scale) = some view ∧ view.spec = ⟨.w2Scale, [8], .float32⟩ ∧
        (s.after Prod.mk [(0, 3, .w2Scale)]).tensor Prod.mk (0, 3, .w2Scale) =
          .ok ((rank, view), s') :=
  ⟨_, rfl, (shared_weights Prod.mk twoRanks _ rfl).2.2 [(0, 3, .w2Scale)] 0 3
    ⟨.w2Scale, [8], .float32⟩ (by decide) (by decide) (by decide)⟩

end PocketMoE.Backend.SharedWeights
