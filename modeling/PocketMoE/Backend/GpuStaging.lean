import Mathlib.Data.Finset.Card
import Mathlib.Data.Fintype.Card
import Mathlib.Data.Fintype.Basic
import PocketMoE.Lib.Action
import PocketMoE.Lib.Trans

/-!
# Staging the routed experts on the GPU

Model of `GPUPrefillMoEBackend` (`components/moe/gpu_prefill_backend.py`): the six staging buffers
with the format they were allocated for, the set of experts that are staged, the recorded arena
format and the device. `stageLocalExperts` is `_stage_local_experts` with its four sources of bytes
(the FP4 arena or the hot-expert cache, the int8 arena, the int8 arena after preparing, the int8
cache of the CPU backend), `forward` the two kernel paths. What the CPU backend has at the time of
an operation is its `Host`; its arenas and its cache hold each expert's own weights.

An operation that raises keeps what it has changed so far. Streams and events only order the
copies, so they are left out, as are the profile counters.
-/

namespace PocketMoE.Backend.GpuStaging

open PocketMoE.Lib

inductive Format where
  | int8
  | fp4
deriving DecidableEq

/-- The bytes of an expert's six tensors in a format. -/
structure Weights (n : ℕ) where
  format : Format
  expert : Fin n
deriving DecidableEq

/-- `_w1q` … `_w3s`: allocated on a device for the shapes of a format. A slot that nothing was copied
to has no weights. -/
structure Buffers (D : Type) (n : ℕ) where
  device : D
  format : Format
  slot : Fin n → Option (Weights n)

/-- A `GPUPrefillMoEBackend`, with the entries of the shared hot cache under its layer's keys. -/
structure Staging (D : Type) (n : ℕ) where
  preparedDevice : Option D
  buffers : Option (Buffers D n)
  stagedLocalExperts : Finset (Fin n)
  stagedArenaFormat : Format
  hot : ℕ → Fin n → Option (Weights n)

/-- The state of `__init__`. -/
def initial (D : Type) (n : ℕ) : Staging D n :=
  ⟨none, none, ∅, .int8, fun _ _ => none⟩

inductive Error where
  | runtimeError (text : String)
  | shapeMismatch
  | attributeError
deriving DecidableEq

/-- What is fixed for a backend: the device kinds and indices, the local range, the switches and the
kernels of the extension. `denseStage` is `int(n_local_experts * threshold)` for a threshold above
zero. -/
structure Config (D : Type) where
  isCuda : D → Bool
  deviceIndex : D → ℕ
  expertsStart : ℤ
  topkLimit : ℤ
  denseStage : Option ℕ
  hotCache : Bool
  singleTokenGroup : Bool
  fp4DirectGrouped : Bool
  hasSingleTokenInt8 : Bool
  hasSingleTokenFp4 : Bool
  hasGroupedFp4 : Bool

/-- What the backend finds outside itself during an operation: the arenas of the CPU backend before
and after `prepare_int8_weights`, its int8 cache, the pinned workspaces and the hot cache's
evictions. -/
structure Host (n : ℕ) where
  extension : Bool
  fp4Arena : Bool
  int8Arena : Bool
  prepares : List (Fin n) → Bool
  cached : Fin n → Bool
  int8ArenaAfter : Bool
  pinned : Bool
  evicted : Fin n → Bool
  admits : Fin n → Bool

variable {D : Type} [DecidableEq D] {n : ℕ}

abbrev Act (D : Type) (n : ℕ) := EStateM Error (Staging D n)

namespace Staging

/-- The fields `release_cache` leaves: not the recorded format. -/
def released (b : Staging D n) : Staging D n :=
  { b with preparedDevice := none, buffers := none, stagedLocalExperts := ∅ }

/-- `_ensure_storage`. -/
def ensured (b : Staging D n) (device : D) (format : Format) : Staging D n :=
  if b.buffers.isSome ∧ b.preparedDevice = some device then b
  else { b with
    preparedDevice := some device
    buffers := some ⟨device, format, fun _ => none⟩
    stagedLocalExperts := ∅ }

/-- The two tests at the head of `_stage_local_experts`. -/
def stale (b : Staging D n) (host : Host n) (preferFp4 : Bool) : Bool :=
  b.buffers.isSome && (!preferFp4 && b.stagedArenaFormat != .int8 ||
    preferFp4 && b.stagedArenaFormat != .fp4 && host.fp4Arena)

/-- What staging starts from. -/
def refreshed (b : Staging D n) (host : Host n) (preferFp4 : Bool) : Staging D n :=
  if b.stale host preferFp4 then b.released else b

end Staging

def releaseCache : Act D n Unit :=
  modify Staging.released

def ensureStorage (device : D) (format : Format) : Act D n Unit :=
  modify (·.ensured device format)

/-- `Tensor.unique` of local ids. -/
def unique (ids : List (Fin n)) : List (Fin n) :=
  (List.finRange n).filter (· ∈ ids)

/-- `_expert_ids_for_stage`, as local ids. -/
def expertIdsForStage (cfg : Config D) : Option (List (Fin n)) → List (Fin n)
  | none => List.finRange n
  | some [] => []
  | some (id :: ids) =>
    let experts := unique (id :: ids)
    if cfg.denseStage.any (· ≤ experts.length) then List.finRange n else experts

/-- The requested experts that are not staged. -/
def missing (cfg : Config D) (request : Option (List (Fin n))) (b : Staging D n) : List (Fin n) :=
  (expertIdsForStage cfg request).filter (· ∉ b.stagedLocalExperts)

/-- Copies of one expert's six tensors into its slot: of tensors of the other format's shapes they
raise. -/
def copySlot (e : Fin n) (weights : Weights n) : Act D n Unit := do
  let b ← get
  match b.buffers with
  | none => throw .attributeError
  | some buf =>
    if buf.format = weights.format then
      set { b with buffers := some { buf with slot := Function.update buf.slot e (some weights) } }
    else throw .shapeMismatch

/-- The six copies of a whole arena. -/
def copyArena (format : Format) : Act D n Unit := do
  let b ← get
  match b.buffers with
  | none => throw .attributeError
  | some buf =>
    if buf.format = format then
      set { b with buffers := some { buf with slot := fun e => some ⟨format, e⟩ } }
    else throw .shapeMismatch

/-- `_HOT_EXPERT_CACHE.insert` of what the slot now has. -/
def insertHot (host : Host n) (index : ℕ) (e : Fin n) : Act D n Unit :=
  modify fun b =>
    let entries := Function.update (b.hot index) e (b.buffers.bind (·.slot e))
    if host.admits e then { b with hot := Function.update b.hot index entries } else b

/-- One expert from an arena, for FP4 through the hot cache. -/
def copyExpert (cfg : Config D) (host : Host n) (device : D) (format : Format) (e : Fin n) :
    Act D n Unit :=
  if format = .fp4 ∧ cfg.hotCache then do
    let b ← get
    match if host.evicted e then none else b.hot (cfg.deviceIndex device) e with
    | some cached => copySlot e cached
    | none => do
      copySlot e ⟨format, e⟩
      insertHot host (cfg.deviceIndex device) e
  else copySlot e ⟨format, e⟩

/-- `for expert_id in missing: self._staged_local_experts.add(...)`. -/
def markStaged (device : D) (experts : List (Fin n)) : Act D n Unit :=
  modify fun b => { b with
    stagedLocalExperts := b.stagedLocalExperts ∪ experts.toFinset, preparedDevice := some device }

def recordFormat (format : Format) : Act D n Unit :=
  modify fun b => { b with stagedArenaFormat := format }

def copyFromArena (cfg : Config D) (host : Host n) (device : D) (format : Format)
    (experts : List (Fin n)) : Act D n Unit :=
  if experts.length = n then copyArena format
  else experts.forM (copyExpert cfg host device format)

/-- Staging from an arena. -/
def stageArena (cfg : Config D) (host : Host n) (device : D) (format : Format)
    (experts : List (Fin n)) : Act D n Unit := do
  ensureStorage device format
  copyFromArena cfg host device format experts
  markStaged device experts
  recordFormat format

def notCached (e : Fin n) (cfg : Config D) : Error :=
  .runtimeError ("missing int8 cache for expert " ++ toString (cfg.expertsStart + e))

/-- Copies from the int8 cache, through a pinned workspace or directly. -/
def copyFromCache (cfg : Config D) (host : Host n) (experts : List (Fin n)) : Act D n Unit :=
  if host.pinned then
    match experts.find? (!host.cached ·) with
    | some e => throw (notCached e cfg)
    | none =>
      if experts.length = n then copyArena .int8
      else experts.forM fun e => copySlot e ⟨.int8, e⟩
  else
    experts.forM fun e => if host.cached e then copySlot e ⟨.int8, e⟩ else throw (notCached e cfg)

/-- Staging from the int8 cache. The recorded format stays what it was. -/
def stageWorkspace (cfg : Config D) (host : Host n) (device : D) (experts : List (Fin n)) :
    Act D n Unit := do
  copyFromCache cfg host experts
  markStaged device experts

/-- Staging when no arena is there at first. -/
def stagePrepared (cfg : Config D) (host : Host n) (device : D) (experts : List (Fin n)) :
    Act D n Unit :=
  if !host.prepares experts then
    throw (.runtimeError "CPU expert int8 weights are not prepared")
  else if !experts.any host.cached then
    throw (.runtimeError "missing int8 cache for active experts")
  else do
    ensureStorage device .int8
    if host.int8ArenaAfter ∧ experts.length = n then do
      copyArena .int8
      markStaged device experts
      recordFormat .int8
    else stageWorkspace cfg host device experts

/-- The branches of `_stage_local_experts` for what is missing. -/
def stageMissing (cfg : Config D) (host : Host n) (device : D) (preferFp4 : Bool)
    (experts : List (Fin n)) : Act D n Unit :=
  if experts = [] then pure ()
  else if preferFp4 && host.fp4Arena then stageArena cfg host device .fp4 experts
  else if host.int8Arena then stageArena cfg host device .int8 experts
  else stagePrepared cfg host device experts

def loadExtension (host : Host n) : Act D n Unit :=
  if host.extension then pure ()
  else throw (.runtimeError "cuda_kernel int8 GEMM extension is unavailable")

def stageLocalExperts (cfg : Config D) (host : Host n) (device : D)
    (request : Option (List (Fin n))) (preferFp4 : Bool) : Act D n Unit := do
  modify (·.refreshed host preferFp4)
  loadExtension host
  let b ← get
  stageMissing cfg host device preferFp4 (missing cfg request b)

/-- `_apply_topk_limit` on a row of ids. -/
def applyTopkLimit (limit : ℤ) (row : List ℤ) : List ℤ :=
  if limit ≤ 0 ∨ (row.length : ℤ) ≤ limit then row
  else row.take limit.toNat ++ List.replicate (row.length - limit.toNat) (-1)

/-- The local ids among a row of expert ids. -/
def localIds (cfg : Config D) (n : ℕ) (row : List ℤ) : List (Fin n) :=
  row.filterMap fun id =>
    if h : 0 ≤ id - cfg.expertsStart ∧ (id - cfg.expertsStart).toNat < n then
      some ⟨(id - cfg.expertsStart).toNat, h.2⟩
    else none

def prefetch (cfg : Config D) (host : Host n) (device : D) (preferFp4 : Bool) : Act D n Unit :=
  if cfg.isCuda device then stageLocalExperts cfg host device none preferFp4 else pure ()

def prefetchActiveExperts (cfg : Config D) (host : Host n) (device : D)
    (indices : List (List ℤ)) : Act D n Unit :=
  let ids := localIds cfg n indices.flatten
  if cfg.isCuda device ∧ ids ≠ [] then stageLocalExperts cfg host device (some ids) true
  else pure ()

/-- A kernel call: the format of the kernel, the device of its input, what the backend has recorded,
the buffers it is handed and the local experts of its routing. -/
structure Launch (D : Type) (n : ℕ) where
  kernel : Format
  device : D
  recorded : Format
  staged : Finset (Fin n)
  buffers : Buffers D n
  routed : List (Fin n)

/-- `forward` finds staged experts of a format that its path does not take. -/
def Staging.relabels (b : Staging D n) (host : Host n) (single : Bool) : Bool :=
  if single then b.stagedArenaFormat != .fp4 && host.fp4Arena else b.stagedArenaFormat != .int8

/-- What `forward` asks to be staged, if anything, and whether it prefers FP4. -/
def stageRequest (cfg : Config D) (host : Host n) (device : D) (single : Bool)
    (routed : List (Fin n)) (b : Staging D n) : Option (List (Fin n) × Bool) :=
  let preferFp4 := single || cfg.fp4DirectGrouped
  if b.buffers.isNone ∨ b.preparedDevice ≠ some device ∨ b.relabels host single then
    some (routed, preferFp4)
  else if b.stagedLocalExperts.card < n then
    let unstaged := routed.filter (· ∉ b.stagedLocalExperts)
    if unstaged = [] then none else some (unstaged, preferFp4)
  else none

/-- The kernel that `forward` selects. All int8 variants read int8 buffers. -/
def kernelFormat (cfg : Config D) (single : Bool) (recorded : Format) : Format :=
  if single then if recorded = .fp4 ∧ cfg.hasSingleTokenFp4 then .fp4 else .int8
  else if cfg.fp4DirectGrouped ∧ recorded = .fp4 ∧ cfg.hasGroupedFp4 then .fp4 else .int8

def launch (cfg : Config D) (device : D) (single : Bool) (routed : List (Fin n)) :
    Act D n (Option (Launch D n)) := do
  let b ← get
  match b.buffers with
  | none => throw .attributeError
  | some buf =>
    pure (some ⟨kernelFormat cfg single b.stagedArenaFormat, device, b.stagedArenaFormat,
      b.stagedLocalExperts, buf, routed⟩)

/-- The staging that `forward` asks for. -/
def stageRequested (cfg : Config D) (host : Host n) (device : D) :
    Option (List (Fin n) × Bool) → Act D n Unit
  | none => pure ()
  | some (ids, preferFp4) => stageLocalExperts cfg host device (some ids) preferFp4

/-- The one-token path of `forward`. -/
def isSingle (cfg : Config D) (rows : ℕ) (indices : List (List ℤ)) : Bool :=
  cfg.singleTokenGroup && rows == 1 && indices.length == 1 && cfg.hasSingleTokenInt8

/-- The local experts of the routing that `forward` uses. -/
def routedExperts (cfg : Config D) (n : ℕ) (indices : List (List ℤ)) : List (Fin n) :=
  unique (localIds cfg n (indices.map (applyTopkLimit cfg.topkLimit)).flatten)

/-- `forward` on an input of some rows: the kernel call, or none for the zero output. -/
def forward (cfg : Config D) (host : Host n) (device : D) (rows : ℕ) (indices : List (List ℤ)) :
    Act D n (Option (Launch D n)) :=
  if !cfg.isCuda device then throw (.runtimeError "GPU prefill MoE requires CUDA input")
  else do
    loadExtension host
    let routed := routedExperts cfg n indices
    let single := isSingle cfg rows indices
    if routed = [] then pure none
    else do
      let b ← get
      stageRequested cfg host device (stageRequest cfg host device single routed b)
      launch cfg device single routed

inductive Op (D : Type) (n : ℕ) where
  | prefetch (device : D) (preferFp4 : Bool)
  | prefetchActive (device : D) (indices : List (List ℤ))
  | stage (device : D) (request : Option (List (Fin n))) (preferFp4 : Bool)
  | forward (device : D) (rows : ℕ) (indices : List (List ℤ))
  | release

def perform (cfg : Config D) (host : Host n) : Op D n → Act D n (Option (Launch D n))
  | .prefetch device preferFp4 => do
    prefetch cfg host device preferFp4
    pure none
  | .prefetchActive device indices => do
    prefetchActiveExperts cfg host device indices
    pure none
  | .stage device request preferFp4 => do
    stageLocalExperts cfg host device request preferFp4
    pure none
  | .forward device rows indices => forward cfg host device rows indices
  | .release => do
    releaseCache
    pure none

/-- An operation, what it found outside, and the kernel it launched. -/
structure Event (D : Type) (n : ℕ) where
  op : Op D n
  host : Host n
  launched : Option (Launch D n)

/-- What an operation launched, and the state it left, also when it raised. -/
def outcome (cfg : Config D) (b : Staging D n) (op : Op D n) (host : Host n) :
    Option (Launch D n) × Staging D n :=
  match (perform cfg host op).run b with
  | .ok launched t => (launched, t)
  | .error _ t => (none, t)

def Step (cfg : Config D) (b : Staging D n) (e : Event D n) (b' : Staging D n) : Prop :=
  outcome cfg b e.op e.host = (e.launched, b')

/-- The run of a list of operations. -/
def replay (cfg : Config D) (b : Staging D n) :
    List (Op D n × Host n) → List (Staging D n × Event D n) × Staging D n
  | [] => ([], b)
  | (op, host) :: ops =>
    let (launched, b') := outcome cfg b op host
    let (trace, last) := replay cfg b' ops
    ((b, ⟨op, host, launched⟩) :: trace, last)

lemma replay_run (cfg : Config D) (b : Staging D n) (ops : List (Op D n × Host n)) :
    Run (Step cfg) b (replay cfg b ops).1 (replay cfg b ops).2 := by
  induction ops generalizing b with
  | nil => exact .nil b
  | cons op ops ih => exact .cons rfl (ih _)

/-- The bytes are of the recorded format, and the routed experts are in their own slots. -/
structure Launch.Sound (l : Launch D n) : Prop where
  format : l.buffers.format = l.recorded
  device : l.buffers.device = l.device
  bytes : ∀ e ∈ l.staged, l.buffers.slot e = some ⟨l.recorded, e⟩
  routed : ∀ e ∈ l.routed, e ∈ l.staged

end PocketMoE.Backend.GpuStaging
