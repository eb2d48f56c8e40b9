import Mathlib.Data.Nat.Notation
import Mathlib.Data.Int.Notation
import Mathlib.Logic.Function.Basic
import Mathlib.Tactic.Common

/-!
# Preparing the int8 experts

Model of the int8 side of `CPURoutedExpertsBackend` (`components/moe/cpu_backend.py`): the cache of
packed experts, the pinned arena its entries point into, the six pointer tables the native kernels
read, and the flag `_int8_weights_prepared` that selects the int8 runner.

A tensor is the address of its storage, so that an emptied parameter and a slice of an arena
allocated for an empty shape both have a null `data_ptr()`. The FP4 store is left out: what a
conversion on the GPU gives is what the `Host` says. A call that raises keeps what it has changed so
far.
-/

namespace PocketMoE.Backend.Int8Prepare

/-- The address of a storage. -/
structure Address where
  val : ℕ
  pos : val ≠ 0

/-- A tensor, as far as its memory goes: an empty one has no storage. -/
abbrev Tensor := Option Address

/-- `data_ptr()`. -/
def dataPtr : Tensor → ℕ
  | none => 0
  | some a => a.val

/-- `w1q, w1s, w2q, w2s, w3q, w3s`: one of each for the weights and the scales of an expert. -/
structure Six (α : Type) where
  w1 : α
  s1 : α
  w2 : α
  s2 : α
  w3 : α
  s3 : α

namespace Six

variable {α β γ : Type}

def map (f : α → β) (t : Six α) : Six β :=
  ⟨f t.w1, f t.s1, f t.w2, f t.s2, f t.w3, f t.s3⟩

def map₂ (f : α → β → γ) (t : Six α) (u : Six β) : Six γ :=
  ⟨f t.w1 u.w1, f t.s1 u.s1, f t.w2 u.w2, f t.s2 u.s2, f t.w3 u.w3, f t.s3 u.s3⟩

/-- All six have the property. -/
def All (P : α → Prop) (t : Six α) : Prop :=
  P t.w1 ∧ P t.s1 ∧ P t.w2 ∧ P t.s2 ∧ P t.w3 ∧ P t.s3

instance (P : α → Prop) [DecidablePred P] (t : Six α) : Decidable (t.All P) := by
  unfold All
  infer_instance

lemma All.map {P : β → Prop} {f : α → β} {t : Six α} (h : t.All fun a => P (f a)) :
    (t.map f).All P := h

lemma All.map₂ {P : α → Prop} {Q : γ → Prop} {f : α → β → γ} {t : Six α} {u : Six β}
    (h : t.All P) (hf : ∀ a b, P a → Q (f a b)) : (t.map₂ f u).All Q := by
  obtain ⟨h1, h2, h3, h4, h5, h6⟩ := h
  exact ⟨hf _ _ h1, hf _ _ h2, hf _ _ h3, hf _ _ h4, hf _ _ h5, hf _ _ h6⟩

lemma All.imp {P Q : α → Prop} {t : Six α} (h : t.All P) (hPQ : ∀ a, P a → Q a) : t.All Q := by
  obtain ⟨h1, h2, h3, h4, h5, h6⟩ := h
  exact ⟨hPQ _ h1, hPQ _ h2, hPQ _ h3, hPQ _ h4, hPQ _ h5, hPQ _ h6⟩

end Six

inductive DType where
  | int8
  | float4
  | other
deriving DecidableEq

/-- An expert: the storages of its parameters, and of its `_cpu_*` tensors once
`_cpu_materialized`. -/
structure Expert where
  dtype : DType
  ggufRawBacking : Bool
  weights : Six Tensor
  cpu : Option (Six Tensor)

/-- `_int8_arena`: the slots of its rows. -/
structure Arena where
  rows : ℕ
  slot : ℕ → Six Tensor

/-- The local experts, `experts_start_idx` to `experts_end_idx`. -/
structure Layer where
  start : ℕ
  stop : ℕ

namespace Layer

def rows (L : Layer) : ℕ := L.stop - L.start

def ids (L : Layer) : List ℕ := List.range' L.start L.rows

lemma mem_ids {L : Layer} {e : ℕ} : e ∈ L.ids ↔ L.start ≤ e ∧ e < L.stop := by
  simp only [ids, rows, List.mem_range'_1]
  omega

end Layer

structure State where
  experts : ℕ → Option Expert
  nativeInt8Enabled : Bool
  /-- `_native_int8_w1_ptrs` … `_native_int8_s3_ptrs`, which are set and dropped together. -/
  ptrs : Option (Six (ℕ → ℕ))
  expertInt8Cache : ℕ → Option (Six Tensor)
  int8WeightsPrepared : Bool
  int8ArenaEnabled : Bool
  int8Arena : Option Arena

/-- What a conversion on the GPU comes to. -/
inductive Converted (α : Type) where
  | raised
  | unavailable
  | given (packed : α)

/-- What a call finds outside the backend: the rows of a pinned allocation, if it does not fail;
which experts have the shapes of the arena; and the conversions of FP4 weights, which are never
empty. -/
structure Host where
  pinned : Option (ℕ → Six Address)
  fits : ℕ → Bool
  fp4Expert : ℕ → Converted (Six Address)
  fp4Arena : Converted (ℕ → Six Address)

section Operations

variable (L : Layer) (host : Host)

/-- `_should_run_int8_native`. -/
def shouldRunInt8Native (s : State) : Bool :=
  s.int8WeightsPrepared && s.nativeInt8Enabled

/-- `has_gguf_raw_experts`. -/
def hasGgufRawExperts (s : State) : Bool :=
  L.ids.any fun e => (s.experts e).any (·.ggufRawBacking)

/-- `self._expert_int8_cache[expert_id] = packed`. -/
def State.store (s : State) (e : ℕ) (packed : Six Tensor) : State :=
  { s with expertInt8Cache := Function.update s.expertInt8Cache e (some packed) }

def State.setExpert (s : State) (e : ℕ) (expert : Expert) : State :=
  { s with experts := Function.update s.experts e (some expert) }

/-- `torch.empty((n, *shape), pin_memory=True)` six times. There is no storage for an empty
shape. -/
def pinnedArena (template : Six Tensor) (rows : ℕ → Six Address) : Arena :=
  ⟨L.rows, fun i => template.map₂ (fun t a => t.map fun _ => a) (rows i)⟩

/-- `_ensure_int8_arena`. -/
def ensureInt8Arena (s : State) (packed : Six Tensor) : State :=
  if !s.int8ArenaEnabled || s.int8Arena.isSome || L.rows == 0 then s
  else match host.pinned with
    | none => { s with int8ArenaEnabled := false, int8Arena := none }
    | some rows => { s with int8Arena := some (pinnedArena L packed rows) }

/-- The slot of an expert, when it is one of the arena's rows. -/
def Arena.slotOf (arena : Arena) (e : ℕ) : Option (Six Tensor) :=
  if e < L.start || arena.rows ≤ e - L.start then none else some (arena.slot (e - L.start))

/-- `_reserve_arena_slot_int8`. -/
def reserveArenaSlotInt8 (s : State) (expert : Expert) (e : ℕ) : State × Option (Six Tensor) :=
  if !s.int8ArenaEnabled then (s, none)
  else
    let s := ensureInt8Arena L host s expert.weights
    (s, s.int8Arena.bind fun arena => arena.slotOf L e)

/-- Whether six `copy_` calls into a slot go through: an empty tensor and one that is not have
different shapes. -/
def copies (slot packed : Six Tensor) (fits : Bool) : Bool :=
  fits && decide ((slot.map₂ (fun d t => d.isSome == t.isSome) packed).All (· = true))

/-- `_store_int8_cached`. -/
def storeInt8Cached (s : State) (e : ℕ) (packed : Six Tensor) : State :=
  let s := ensureInt8Arena L host s packed
  match s.int8Arena.bind fun arena => arena.slotOf L e with
  | none => s.store e packed
  | some slot => if copies slot packed (host.fits e) then s.store e slot else s.store e packed

/-- `_materialize_cpu_weights`. -/
def Expert.materializeCpuWeights (expert : Expert) : Expert :=
  match expert.cpu with
  | some _ => expert
  | none => { expert with cpu := some expert.weights }

/-- `_release_expert_parameter_storage`, and the `_cpu_*` tensors set to the slot before it. -/
def Expert.repoint (expert : Expert) (slot : Six Tensor) : Expert :=
  { expert with cpu := some slot, weights := ⟨none, none, none, none, none, none⟩ }

/-- The rest of `_materialize_int8_expert` for an int8 expert that is not copied into its slot. -/
def materializePrivate (s : State) (expert : Expert) (e : ℕ) : State :=
  let expert := expert.materializeCpuWeights
  storeInt8Cached L host (s.setExpert e expert) e (expert.cpu.getD expert.weights)

/-- `_materialize_int8_expert` for an int8 expert that is not in the cache. -/
def materializeInt8Expert (s : State) (expert : Expert) (e : ℕ) : State :=
  match reserveArenaSlotInt8 L host s expert e with
  | (s, some slot) =>
    if copies slot expert.weights (host.fits e) then
      (s.setExpert e (expert.repoint slot)).store e slot
    else materializePrivate L host s expert e
  | (s, none) => materializePrivate L host s expert e

/-- One turn of the loop of `prepare_int8_weights`: whether the expert is cached afterwards, or
`none` when the turn raises. Weights that are neither FP4 nor int8 have no int8 form. -/
def prepareExpert (s : State) (expert : Expert) (e : ℕ) : State × Option Bool :=
  if (s.expertInt8Cache e).isSome then (s, some true)
  else match expert.dtype with
    | .float4 =>
      match host.fp4Expert e with
      | .raised => (s, none)
      | .unavailable => (s, some false)
      | .given packed => (storeInt8Cached L host s e (packed.map some), some true)
    | .int8 =>
      if expert.ggufRawBacking then (s, some false)
      else (materializeInt8Expert L host s expert e, some true)
    | .other =>
      if expert.ggufRawBacking then (s, some false)
      else (s.setExpert e expert.materializeCpuWeights, some false)

/-- The loop of `prepare_int8_weights`, with `ok` and `prepared_any`. -/
def prepareEach (s : State) (ok preparedAny : Bool) : List ℤ → State × Option (Bool × Bool)
  | [] => (s, some (ok, preparedAny))
  | e :: ids =>
    if e < L.start || L.stop ≤ e then prepareEach s ok preparedAny ids
    else match s.experts e.toNat with
      | none => prepareEach s ok preparedAny ids
      | some expert =>
        match prepareExpert L host s expert e.toNat with
        | (s, none) => (s, none)
        | (s, some done) => prepareEach s (done && ok) true ids

/-- `_refresh_int8_ptrs`. -/
def refreshInt8Ptrs (s : State) : State :=
  let table := fun (old : Option (ℕ → ℕ)) (tensor : Six Tensor → Tensor) (e : ℕ) =>
    match s.expertInt8Cache e with
    | some packed => dataPtr (tensor packed)
    | none => (old.getD fun _ => 0) e
  { s with
    ptrs := some
      ⟨table (s.ptrs.map (·.w1)) (·.w1), table (s.ptrs.map (·.s1)) (·.s1),
       table (s.ptrs.map (·.w2)) (·.w2), table (s.ptrs.map (·.s2)) (·.s2),
       table (s.ptrs.map (·.w3)) (·.w3), table (s.ptrs.map (·.s3)) (·.s3)⟩ }

/-- `release_int8_prepare_cache`. -/
def releaseInt8PrepareCache (s : State) : State :=
  { s with
    expertInt8Cache := fun _ => none
    int8Arena := none
    int8WeightsPrepared := false
    ptrs := none }

/-- `get_int8_arena`. The first row is where the arena's first tensor starts. -/
def getInt8Arena (s : State) : Option Arena :=
  if s.int8ArenaEnabled then
    s.int8Arena.filter fun arena =>
      L.ids.all (fun e =>
        (s.expertInt8Cache e).any fun cached => dataPtr (arena.slot 0).w1 ≤ dataPtr cached.w1) &&
      arena.rows == L.rows
  else none

/-- `_gpu_convert_fp4_arena_to_int8`. -/
def gpuConvertFp4ArenaToInt8 (s : State) : State × Option Bool :=
  match host.fp4Arena with
  | .raised => (s, none)
  | .unavailable => (s, some false)
  | .given rows =>
    let slot := fun i => (rows i).map some
    ({ s with
        int8Arena := some ⟨L.rows, slot⟩
        int8ArenaEnabled := true
        expertInt8Cache := fun e => if e ∈ L.ids then some (slot (e - L.start)) else none },
      some true)

/-- The end of `prepare_int8_weights`: the loop and the flag. Only local experts are ever cached, so
that the cache is empty when they are not. -/
def prepareListed (s : State) (ids : List ℤ) : State × Option Bool :=
  match prepareEach L host s true false ids with
  | (s, none) => (s, none)
  | (s, some (ok, preparedAny)) =>
    let s := if preparedAny then refreshInt8Ptrs s else s
    let prepared := L.ids.any (fun e => (s.expertInt8Cache e).isSome) && ok
    ({ s with int8WeightsPrepared := prepared }, some prepared)

/-- `prepare_int8_weights`, which returns the flag. -/
def prepareInt8Weights (s : State) (expertIds : Option (List ℤ)) : State × Option Bool :=
  if hasGgufRawExperts L s then (releaseInt8PrepareCache s, some false)
  else if expertIds.isNone && (getInt8Arena L s).isSome then
    ({ refreshInt8Ptrs s with int8WeightsPrepared := true }, some true)
  else
    let converted := if expertIds.isNone then gpuConvertFp4ArenaToInt8 L host s else (s, some false)
    match converted with
    | (s, none) => (s, none)
    | (s, some true) => ({ refreshInt8Ptrs s with int8WeightsPrepared := true }, some true)
    | (s, some false) => prepareListed L host s (expertIds.getD (L.ids.map Int.ofNat))

/-- `_ensure_native_ready`: the experts it gets to have their CPU weights made, and the switch is
what it decides. -/
def ensureNativeReady (s : State) (reached : ℕ) (enabled : Bool) : State :=
  { s with
    experts := fun e => if e < reached then (s.experts e).map Expert.materializeCpuWeights
      else s.experts e
    nativeInt8Enabled := enabled }

end Operations

/-- What happens to a backend. -/
inductive Step where
  | prepare (host : Host) (expertIds : Option (List ℤ))
  | release
  | ready (reached : ℕ) (enabled : Bool)

def step (L : Layer) (s : State) : Step → State
  | .prepare host expertIds => (prepareInt8Weights L host s expertIds).1
  | .release => releaseInt8PrepareCache s
  | .ready reached enabled => ensureNativeReady s reached enabled

def run (L : Layer) (s : State) (steps : List Step) : State :=
  steps.foldl (step L) s

end PocketMoE.Backend.Int8Prepare
