import Mathlib.Algebra.BigOperators.Group.Finset.Basic
import Mathlib.Algebra.Field.Defs
import Mathlib.Data.Int.Cast.Basic
import Mathlib.Order.Defs.LinearOrder
import PocketMoE.Lib.Loop

/-!
# The native int8 MoE kernels

Model of `csrc/deepseek_cpu_moe_ext.cpp`: `routed_int8_moe_forward` with its paths for one token,
for up to sixteen tokens and for more, and the variants for one token that divide the routes over
OpenMP threads (`topkParallel`) or over the persistent team. Buffers are functions of a flat index,
as in the source; `Scratch` has what an earlier call left in the thread-local ones.

Arithmetic is exact in a field. The dot products of the three AVX2 routines are then one sum, the
row quantisation and the sigmoid unit are parameters, and the order in which threads interleave is
free (`Machine`).
-/

namespace PocketMoE.Backend.Int8Kernels

open PocketMoE.Lib

/-- The tensors of an expert: int8 rows, each with a scale. -/
structure Expert (R : Type) where
  w1 : ℕ → ℕ → ℤ
  w2 : ℕ → ℕ → ℤ
  w3 : ℕ → ℕ → ℤ
  s1 : ℕ → R
  s2 : ℕ → R
  s3 : ℕ → R

/-- The shape of a call and its routing: expert ids by token and slot, and which entries of the six
pointer tables are not null. -/
structure Call where
  tokens : ℕ
  hiddenDim : ℕ
  topk : ℕ
  interDim : ℕ
  expertIds : ℕ → ℕ → ℤ
  expertsStartIdx : ℤ
  expertsEndIdx : ℤ
  w1Ptrs : ℤ → Bool
  w2Ptrs : ℤ → Bool
  w3Ptrs : ℤ → Bool
  s1Ptrs : ℤ → Bool
  s2Ptrs : ℤ → Bool
  s3Ptrs : ℤ → Bool

/-- A quantised row and its scale. -/
abbrev Quantized (R : Type) := (ℕ → ℤ) × R

/-- Buffers that were used before. -/
structure Scratch (R : Type) where
  hidden : ℕ → R
  quantized : ℕ → Quantized R
  partials : ℕ → R

structure Data (R : Type) where
  input : ℕ → ℕ → R
  weights : ℕ → ℕ → R
  expert : ℤ → Expert R
  quantizeRow : (n : ℕ) → (Fin n → R) → Quantized R
  silu : R → R
  swigluLimit : R
  scratch : Scratch R

/-- The threads: OpenMP's, and those of the persistent team. OpenMP divides the iterations of a loop
in some way, and what threads do in a phase is interleaved in some way. -/
structure Machine where
  threads : ℕ
  threads_pos : 0 < threads
  teamThreads : ℕ
  teamThreads_pos : 0 < teamThreads
  split : ℕ → List (List ℕ)
  split_perm : ∀ n, (split n).flatten.Perm (List.range n)
  interleave : {ι : Type} → ℕ → List (List ι) → List ι
  interleave_perm : ∀ {ι : Type} phase (work : List (List ι)),
    (interleave phase work).Perm work.flatten

/-- The order of a phase that is an OpenMP loop, or a loop of the team. -/
def Machine.order (m : Machine) (useTeam : Bool) (phase n : ℕ) : List ℕ :=
  m.interleave phase (if useTeam then (List.range m.teamThreads).map (chunkOf m.teamThreads n)
    else m.split n)

namespace Call

def isLocal (call : Call) (id : ℤ) : Bool :=
  call.expertsStartIdx ≤ id && id < call.expertsEndIdx

def hasWeights (call : Call) (id : ℤ) : Bool :=
  call.w1Ptrs id && call.w2Ptrs id && call.w3Ptrs id && call.s1Ptrs id && call.s2Ptrs id &&
    call.s3Ptrs id

/-- The tests of the route loops. -/
def accepts (call : Call) (id : ℤ) : Bool :=
  call.isLocal id && call.hasWeights id

/-- The slots of a token whose routes are not skipped. -/
def slots (call : Call) (t : ℕ) : List ℕ :=
  (List.range call.topk).filter fun k => call.accepts (call.expertIds t k)

end Call

variable {R : Type} [Field R] [LinearOrder R]

/-- `Int8DecodeRoute`. -/
structure Route (R : Type) where
  token : ℕ
  expertId : ℤ
  weight : R

instance : Inhabited (Route R) := ⟨⟨0, 0, 0⟩⟩

def routeAt (call : Call) (data : Data R) (t k : ℕ) : Route R :=
  ⟨t, call.expertIds t k, data.weights t k⟩

/-- The loop that fills `routes[room]`. -/
def collect (call : Call) (data : Data R) (t : ℕ) : ℕ → List ℕ → List (Route R)
  | 0, _ => []
  | _, [] => []
  | room + 1, k :: ks =>
    if call.accepts (call.expertIds t k) then routeAt call data t k :: collect call data t room ks
    else collect call data t (room + 1) ks

def dot (n : ℕ) (a b : ℕ → ℤ) : ℤ :=
  ∑ i ∈ Finset.range n, a i * b i

/-- One hidden value of a route: both projections, the clamps, the unit and the route's weight. -/
def hiddenAt (call : Call) (data : Data R) (x : Quantized R) (expert : Expert R) (weight : R)
    (o : ℕ) : R :=
  let gate := (dot call.hiddenDim x.1 (expert.w1 o) : R) * x.2 * expert.s1 o
  let up := (dot call.hiddenDim x.1 (expert.w3 o) : R) * x.2 * expert.s3 o
  if 0 < data.swigluLimit then
    weight * data.silu (min data.swigluLimit gate) *
      max (-data.swigluLimit) (min data.swigluLimit up)
  else weight * data.silu gate * up

def outputAt (call : Call) (h : Quantized R) (expert : Expert R) (o : ℕ) : R :=
  (dot call.interDim h.1 (expert.w2 o) : R) * h.2 * expert.s2 o

/-- Row `r` of a buffer with rows of length `n`. -/
def row (n : ℕ) (buffer : ℕ → R) (r : ℕ) : Fin n → R :=
  fun i => buffer (r * n + i)

def quantizeInput (call : Call) (data : Data R) (t : ℕ) : Quantized R :=
  data.quantizeRow call.hiddenDim fun i => data.input t i

/-- `compute_hidden` for flat index `ro`. -/
def computeHidden (call : Call) (data : Data R) (xs : ℕ → Quantized R) (routes : List (Route R))
    (ro : ℕ) (hidden : ℕ → R) : ℕ → R :=
  let r := ro / call.interDim
  let route := routes.getD r default
  Function.update hidden ro (hiddenAt call data (xs route.token) (data.expert route.expertId)
    route.weight (ro - r * call.interDim))

/-- `compute_scales` for route `r`. -/
def computeScales (call : Call) (data : Data R) (hidden : ℕ → R) (r : ℕ)
    (quantized : ℕ → Quantized R) : ℕ → Quantized R :=
  Function.update quantized r (data.quantizeRow call.interDim (row call.interDim hidden r))

/-- `int8_single_token_accumulate_routes_impl` and its `prealloc` twin, which differ in where the
buffers come from. -/
def singleTokenAccumulateRoutes (m : Machine) (call : Call) (data : Data R) (scratch : Scratch R)
    (useTeam : Bool) (output : ℕ → R) : ℕ → R :=
  let routes := collect call data 0 16 (List.range call.topk)
  if routes.isEmpty then output
  else
    let xs := fun _ => quantizeInput call data 0
    let hidden := loop (m.order useTeam 0 (routes.length * call.interDim))
      (computeHidden call data xs routes) scratch.hidden
    let quantized := loop (m.order useTeam 1 routes.length) (computeScales call data hidden)
      scratch.quantized
    loop (m.order useTeam 2 call.hiddenDim) (fun o output =>
      let accOut := loop routes.zipIdx (fun route acc =>
        acc + outputAt call (quantized route.2) (data.expert route.1.expertId) o) 0
      Function.update output o (output o + accOut)) output

/-- The iterations `o = lane_id; o < dim; o += lanes_per_expert` of thread `tid`, with its lane. -/
def laneWork (threads routeCount dim tid : ℕ) : List (ℕ × ℕ) :=
  let expertLane := tid % routeCount
  let laneId := tid / routeCount
  let lanesPerExpert := (threads - 1 - expertLane) / routeCount + 1
  ((List.range dim).filter fun o => laneId ≤ o ∧ (o - laneId) % lanesPerExpert = 0).map
    (expertLane, ·)

def Machine.laneOrder (m : Machine) (phase routeCount dim : ℕ) : List (ℕ × ℕ) :=
  m.interleave phase ((List.range m.threads).map (laneWork m.threads routeCount dim))

/-- `int8_single_token_topk_parallel_impl`. -/
def singleTokenTopkParallel (m : Machine) (call : Call) (data : Data R) : ℕ → R :=
  let routes := collect call data 0 16 (List.range call.topk)
  if routes.isEmpty then fun _ => 0
  else
    let x := quantizeInput call data 0
    let hidden := loop (m.laneOrder 0 routes.length call.interDim) (fun work (hidden : ℕ → R) =>
      let route := routes.getD work.1 default
      Function.update hidden (work.1 * call.interDim + work.2)
        (hiddenAt call data x (data.expert route.expertId) route.weight work.2)) fun _ => 0
    let quantized := loop (List.range routes.length) (computeScales call data hidden)
      fun _ => (fun _ => 0, 1)
    let partials := loop (m.laneOrder 1 routes.length call.hiddenDim) (fun work (partials : ℕ → R) =>
      let route := routes.getD work.1 default
      Function.update partials (work.1 * call.hiddenDim + work.2)
        (outputAt call (quantized work.1) (data.expert route.expertId) work.2)) fun _ => 0
    loop (m.order false 2 call.hiddenDim) (fun o output =>
      Function.update output o (loop (List.range routes.length) (fun r acc =>
        acc + partials (r * call.hiddenDim + o)) 0)) fun _ => 0

/-- `int8_single_token_topk_persistent_impl`. -/
def singleTokenTopkPersistent (m : Machine) (call : Call) (data : Data R) : ℕ → R :=
  let routes := collect call data 0 16 (List.range call.topk)
  if routes.isEmpty then fun _ => 0
  else
    let xs := fun _ => quantizeInput call data 0
    let hidden := loop (m.order true 0 (routes.length * call.interDim))
      (computeHidden call data xs routes) data.scratch.hidden
    let quantized := loop (m.order true 1 routes.length) (computeScales call data hidden)
      data.scratch.quantized
    let partials := loop (m.order true 2 (routes.length * call.hiddenDim)) (fun ro (partials : ℕ → R) =>
      let r := ro / call.hiddenDim
      let route := routes.getD r default
      Function.update partials ro (outputAt call (quantized r) (data.expert route.expertId)
        (ro - r * call.hiddenDim))) data.scratch.partials
    loop (m.order true 3 call.hiddenDim) (fun o output =>
      Function.update output o (loop (List.range routes.length) (fun r acc =>
        acc + partials (r * call.hiddenDim + o)) 0)) fun _ => 0

/-- `std::vector` storage. -/
def zeroed : Scratch R :=
  ⟨fun _ => 0, fun _ => (fun _ => 0, 0), fun _ => 0⟩

/-- `int8_decode_accumulate_routes_impl`, on an output by token and column. -/
def decodeAccumulateRoutes (m : Machine) (call : Call) (data : Data R) (output : ℕ × ℕ → R) :
    ℕ × ℕ → R :=
  let routes := (List.range call.tokens).flatMap fun t => (call.slots t).map (routeAt call data t)
  if routes.isEmpty then output
  else
    let xs := loop (m.order false 0 call.tokens) (fun t xs =>
      if routes.any (·.token = t) then Function.update xs t (quantizeInput call data t) else xs)
      fun _ => (fun _ => 0, 0)
    let hidden := loop (m.order false 1 (routes.length * call.interDim))
      (computeHidden call data xs routes) fun _ => 0
    let quantized := loop (m.order false 2 routes.length) (computeScales call data hidden)
      fun _ => (fun _ => 0, 0)
    loop (m.order false 3 call.hiddenDim) (fun o output =>
      loop routes.zipIdx (fun route output =>
        Function.update output (route.1.token, o) (output (route.1.token, o) +
          outputAt call (quantized route.2) (data.expert route.1.expertId) o)) output) output

/-- `int8_expert_accumulate_group_impl`, with both loops unrolled by four. -/
def expertAccumulateGroup (m : Machine) (phase : ℕ) (call : Call) (data : Data R)
    (xs : ℕ → Quantized R) (routes : List (Route R)) (expert : Expert R) (output : ℕ × ℕ → R) :
    ℕ × ℕ → R :=
  let hidden := loop (m.order false phase call.interDim) (fun o hidden =>
    byFours (fun route hidden => Function.update hidden (route.2 * call.interDim + o)
      (hiddenAt call data (xs route.1.token) expert route.1.weight o)) routes.zipIdx hidden)
    fun _ => 0
  let quantized := loop (List.range routes.length) (computeScales call data hidden)
    fun _ => (fun _ => 0, 0)
  loop (m.order false (phase + 1) call.hiddenDim) (fun o output =>
    byFours (fun route output => Function.update output (route.1.token, o)
      (output (route.1.token, o) + outputAt call (quantized route.2) expert o))
      routes.zipIdx output) output

/-- The local index that the grouped path counts a route under. -/
def groupKey (call : Call) (route : Route R) : Option ℕ :=
  if call.isLocal route.expertId then some (route.expertId - call.expertsStartIdx).toNat else none

/-- The path for more than sixteen tokens. -/
def groupedForward (m : Machine) (call : Call) (data : Data R) (output : ℕ × ℕ → R) :
    ℕ × ℕ → R :=
  let xs := loop (m.order false 0 call.tokens) (fun t xs =>
    Function.update xs t (quantizeInput call data t)) fun _ => (fun _ => 0, 0)
  let entries := (List.range call.tokens).flatMap fun t =>
    (List.range call.topk).map (routeAt call data t)
  let count := counts (groupKey call) entries
  let cells := (placeAll (groupKey call) entries (offsets count) fun _ => default).2
  loop (List.range (call.expertsEndIdx - call.expertsStartIdx).toNat) (fun e output =>
    let routes := group count cells e
    let expertId := call.expertsStartIdx + e
    if routes.isEmpty then output
    else if !call.hasWeights expertId then output
    else expertAccumulateGroup m (2 * e + 1) call data xs routes (data.expert expertId) output)
    output

/-- `routed_int8_moe_forward`: the output row of token `t`. -/
def routedForward (m : Machine) (call : Call) (data : Data R) (t : ℕ) : ℕ → R :=
  if call.tokens = 1 then singleTokenAccumulateRoutes m call data zeroed false fun _ => 0
  else if call.tokens ≤ 16 then fun o => decodeAccumulateRoutes m call data (fun _ => 0) (t, o)
  else fun o => groupedForward m call data (fun _ => 0) (t, o)

inductive Variant where
  | topkParallel
  | topkPersistent
  | persistent
  | preallocPersistent

/-- The variants' output row for one token. -/
def oneTokenForward (m : Machine) (call : Call) (data : Data R) : Variant → ℕ → R
  | .topkParallel => singleTokenTopkParallel m call data
  | .topkPersistent => singleTokenTopkPersistent m call data
  | .persistent => singleTokenAccumulateRoutes m call data zeroed true fun _ => 0
  | .preallocPersistent => singleTokenAccumulateRoutes m call data data.scratch false fun _ => 0

/-- The quantised expert on a token, with the weight of the route. -/
def routeOutput (call : Call) (data : Data R) (t k o : ℕ) : R :=
  let expert := data.expert (call.expertIds t k)
  outputAt call (data.quantizeRow call.interDim fun i =>
    hiddenAt call data (quantizeInput call data t) expert (data.weights t k) i) expert o

/-- What every kernel is to leave in a token's row. -/
def rowSum (call : Call) (data : Data R) (t o : ℕ) : R :=
  ∑ k ∈ Finset.range call.topk,
    if call.accepts (call.expertIds t k) then routeOutput call data t k o else 0

end PocketMoE.Backend.Int8Kernels
