import Mathlib.Algebra.BigOperators.Fin
import Mathlib.Algebra.BigOperators.Intervals
import PocketMoE.Lib.Collective

/-!
# The mixture of experts on a tensor-parallel rank

Model of `MoE.forward` (`runtime.py`, lines 3635 to 4245) and of what it reads: the ranges of
experts that `__init__` gives to a rank, the predicates that choose a branch, and the collectives of
the branches. All ranks get the same tokens and the same routing, so what an expert adds to the rows
of the tokens is a parameter (`contrib`; zero in rows that are not routed to it), and so is the
output of the shared expert. The kernels of a branch add up what the rank's own experts contribute.
Arithmetic is exact: the casts around a reduction are identities.

The server behind the CPU servers has all experts, and its answer to the request of rank 0 is read
by all ranks. Ranks are those of the policies with tensor parallelism, where `tp_world_size` is
`world_size`.
-/

namespace PocketMoE.Runtime
open PocketMoE.Lib

/-! ## Configuration -/

/-- `DEEPSEEK_PD_ACTIVE_PHASE`. -/
inductive Phase where
  | prefill
  | decode
deriving DecidableEq

/-- What is set for all ranks: the model, and the environment variables that the module reads. The
fields without a model behind them are named after their variables. -/
structure MoEConfig where
  nRoutedExperts : Nat
  routedExpertsCpu : Bool
  ggufRaw : Bool
  cudaAvailable : Bool
  pdPhaseAutoSelect : Bool
  pdActivePhase : Option Phase
  pdSingleCpuMoeWeights : Bool
  cpuMoeInprocServer : Bool
  cpuMoeRank0Server : Bool
  cpuMoeExternalServer : Bool
  cpuMoeExternalPrefillLocal : Bool
  cpuMoeHostReduce : Bool
  moeAsyncAllreduce : Bool
  moeCustomAllreduce : Bool
  moeFusedFinalize : Bool
  gpuPrefillMoe : Bool
  gpuPrefillMoeMinTokens : Int
  gpuPrefillMoeChunkTokens : Nat
  ggufGpuPrefillMoe : Bool
  ggufGpuDecodeGrouped : Bool
  ggufGpuDecodeActiveExpert : Bool
  gpuMoeDecodeActive : Bool
  gpuMoeSpecToken2 : Bool
  gpuMoeActiveOverlapReduce : Bool
  gpuMoeActiveOverlapSharedReduce : Bool
  moeReduceCastChunkTokens : Nat

/-- The module on a rank. -/
structure MoE extends MoEConfig where
  worldSize : Nat
  rank : Nat

/-- The input: the number of rows of `x`, and `x.is_cuda`. -/
structure Batch where
  tokens : Nat
  isCuda : Bool

/-- The operations that all ranks take part in. -/
inductive Collective where
  | allReduce
  | customAllreduce
  | hostFloatAllreduce
  | broadcast
  | server
deriving DecidableEq

/-- What the ranks get back: the sum of their values, or what rank 0 has. -/
def Collective.combine {T : Type*} [AddCommMonoid T] {worldSize : Nat} [NeZero worldSize] :
    Collective → (Fin worldSize → T) → T
  | allReduce, values => ∑ rank, values rank
  | customAllreduce, values => ∑ rank, values rank
  | hostFloatAllreduce, values => ∑ rank, values rank
  | broadcast, values => values 0
  | server, values => values 0

namespace MoE

section Predicates

variable (m : MoE) (x : Batch)

def cpuMoeInprocServerEnabled : Bool := m.routedExpertsCpu && m.cpuMoeInprocServer

def cpuMoeRank0ServerEnabled : Bool := m.routedExpertsCpu && m.cpuMoeRank0Server

def cpuMoeExternalServerEnabled : Bool := m.routedExpertsCpu && m.cpuMoeExternalServer

def cpuMoeExternalPrefillLocalEnabled : Bool :=
  m.cpuMoeExternalServerEnabled && m.cpuMoeExternalPrefillLocal

/-- `experts_start_idx` and `experts_end_idx`. -/
def expertsIdx : Nat × Nat :=
  let nLocalExperts := m.nRoutedExperts / m.worldSize
  if m.cpuMoeExternalServerEnabled && !m.cpuMoeExternalPrefillLocalEnabled &&
      !m.pdSingleCpuMoeWeights then
    (0, 0)
  else if m.cpuMoeInprocServerEnabled then
    if m.rank = 0 then (0, m.nRoutedExperts) else (0, 0)
  else if m.cpuMoeRank0ServerEnabled && m.rank = 0 then
    (0, m.nRoutedExperts)
  else
    (m.rank * nLocalExperts, m.rank * nLocalExperts + nLocalExperts)

/-- The rank has experts. -/
def ownsExperts : Bool := m.expertsIdx.1 < m.expertsIdx.2

/-- `cpu_backend is not None`. -/
def cpuBackend : Bool :=
  m.routedExpertsCpu &&
    !(m.cpuMoeExternalServerEnabled && !m.cpuMoeExternalPrefillLocalEnabled)

/-- `_has_gguf_raw_experts`, which looks at the rank's own experts. -/
def hasGgufRawExperts : Bool := m.cpuBackend && m.ggufRaw && m.ownsExperts

/-- `_pd_active_phase`. -/
def activePhase : Option Phase := if m.pdPhaseAutoSelect then m.pdActivePhase else none

/-- `_allreduce_stream is not None`. -/
def allreduceStream : Bool := m.moeAsyncAllreduce && m.cudaAvailable

/-- `_should_use_gpu_prefill_moe`. -/
def shouldUseGpuPrefillMoe : Bool :=
  !m.hasGgufRawExperts && m.activePhase ≠ some .decode &&
    (m.routedExpertsCpu && m.gpuPrefillMoe) && m.cpuBackend && m.ownsExperts && x.isCuda &&
    decide (m.gpuPrefillMoeMinTokens ≤ x.tokens)

/-- `_should_use_gpu_gguf_prefill_moe`. -/
def shouldUseGpuGgufPrefillMoe : Bool :=
  m.hasGgufRawExperts && m.activePhase ≠ some .decode &&
    (m.routedExpertsCpu && m.ggufGpuPrefillMoe) && m.cpuBackend && m.ownsExperts && x.isCuda &&
    decide (m.gpuPrefillMoeMinTokens ≤ x.tokens)

/-- The checks that the decode branches on the GPU share. -/
def shouldUseGpuDecode (gguf enabled : Bool) : Bool :=
  (m.hasGgufRawExperts == gguf) && m.activePhase = some .decode &&
    (m.routedExpertsCpu && enabled) && m.cpuBackend && m.ownsExperts && x.isCuda

/-- `_should_use_gpu_gguf_decode_grouped`. -/
def shouldUseGpuGgufDecodeGrouped : Bool := m.shouldUseGpuDecode x true m.ggufGpuDecodeGrouped

/-- `_should_use_gpu_gguf_decode_active_expert`. -/
def shouldUseGpuGgufDecodeActiveExpert : Bool :=
  m.shouldUseGpuDecode x true m.ggufGpuDecodeActiveExpert

/-- `_should_use_gpu_decode_active_moe`. -/
def shouldUseGpuDecodeActiveMoe : Bool := m.shouldUseGpuDecode x false m.gpuMoeDecodeActive

/-- `_should_use_gpu_spec_token2_moe`. -/
def shouldUseGpuSpecToken2Moe : Bool :=
  m.shouldUseGpuDecode x false m.gpuMoeSpecToken2 && x.tokens = 2

/-- The checks that the two servers share which are not for prefill. -/
def shouldUseCpuServer (enabled : Bool) : Bool :=
  !m.hasGgufRawExperts && (enabled && decide (1 < m.worldSize) && x.tokens = 1) &&
    m.activePhase ≠ some .prefill

/-- `_should_use_in_process_cpu_server`. -/
def shouldUseInProcessCpuServer : Bool := m.shouldUseCpuServer x m.cpuMoeInprocServerEnabled

/-- `_should_use_external_cpu_server`. -/
def shouldUseExternalCpuServer : Bool := m.shouldUseCpuServer x m.cpuMoeExternalServerEnabled

/-- `_should_use_rank0_cpu_server`, which does not look at the phase. -/
def shouldUseRank0CpuServer : Bool :=
  !m.hasGgufRawExperts && m.cpuMoeRank0ServerEnabled && decide (1 < m.worldSize) && x.tokens = 1

/-- `_should_use_cpu_host_reduce`. -/
def shouldUseCpuHostReduce : Bool :=
  m.activePhase ≠ some .prefill && !m.hasGgufRawExperts &&
    (m.routedExpertsCpu && m.cpuMoeHostReduce) && decide (1 < m.worldSize) && x.tokens = 1

/-- `_maybe_fused_moe_finalize` returns a tensor. -/
def fusedMoeFinalize : Bool := m.moeFusedFinalize && x.isCuda

/-- The reduction at the end goes through the custom kernel. -/
def customReducer : Bool :=
  m.moeCustomAllreduce && m.worldSize = 4 && m.activePhase = some .decode && x.isCuda &&
    x.tokens = 1

end Predicates

/-! ## The forward pass -/

section Forward

variable {V : Type*} [AddCommMonoid V] (m : MoE) (x : Batch) (contrib : Nat → Fin x.tokens → V)
  (shared : Fin x.tokens → V)

/-- The loop `for start in range(0, n, chunk): out[start:end] = part[start:end]`. -/
def copyChunks {n : Nat} (chunk : Nat) (out part : Fin n → V) : Fin n → V :=
  (List.range ((n + chunk - 1) / chunk)).foldl
    (fun out b i => if b * chunk ≤ i ∧ i < (b + 1) * chunk then part i else out i) out

/-- What the rank's own experts add to every row. -/
def routed : Fin x.tokens → V := ∑ expert ∈ Finset.Ico m.expertsIdx.1 m.expertsIdx.2, contrib expert

/-- What all experts add to every row. -/
def allRouted : Fin x.tokens → V := ∑ expert ∈ Finset.range m.nRoutedExperts, contrib expert

/-- `_finalize_reduced_moe`. -/
def finalizeReducedMoe (y : Fin x.tokens → V) : Fin x.tokens → V :=
  if 0 < m.moeReduceCastChunkTokens ∧ m.moeReduceCastChunkTokens < x.tokens then
    copyChunks m.moeReduceCastChunkTokens 0 (y + shared)
  else y + shared

/-- The local variables of `forward` after the branches. -/
structure Routed (V : Type*) (tokens : Nat) where
  y : Fin tokens → V
  usedGpuPrefillMoe : Bool := false
  reducedMoeReady : Bool := false
  reducedMoe : Bool := false
  usedRemoteOnly : Bool := false

/-- The experts of the rank run on the GPU. -/
def onGpu : Routed V x.tokens where
  y := m.routed x contrib
  usedGpuPrefillMoe := true

/-- The branch of `_should_use_gpu_prefill_moe`. -/
def prefillOnGpu : Routed V x.tokens where
  y :=
    if 0 < m.gpuPrefillMoeChunkTokens ∧ m.gpuPrefillMoeChunkTokens < x.tokens then
      copyChunks m.gpuPrefillMoeChunkTokens 0 (m.routed x contrib)
    else m.routed x contrib
  usedGpuPrefillMoe := true

/-- `overlap_shared_reduce`. -/
def overlapSharedReduce : Bool :=
  m.gpuMoeActiveOverlapSharedReduce && m.moeAsyncAllreduce && decide (1 < m.worldSize) &&
    m.allreduceStream

/-- `overlap_reduce`. -/
def overlapReduce : Bool :=
  !m.overlapSharedReduce && m.gpuMoeActiveOverlapReduce && m.moeAsyncAllreduce &&
    decide (1 < m.worldSize) && m.allreduceStream

/-- The branch of `_should_use_gpu_decode_active_moe`. -/
def decodeActive : Prog Collective (Fin x.tokens → V) (Routed V x.tokens) :=
  let y := m.routed x contrib
  if m.overlapSharedReduce then
    .call .allReduce y fun yReduce =>
      let y := if m.fusedMoeFinalize x then yReduce + shared else yReduce
      .ret { y, usedGpuPrefillMoe := true, reducedMoeReady := true, reducedMoe := true }
  else if m.overlapReduce then
    .call .allReduce y fun y => .ret { y, usedGpuPrefillMoe := true, reducedMoeReady := true }
  else .ret (m.onGpu x contrib)

/-- `_external_cpu_server_submit_decode` and `_external_cpu_server_wait_decode`. -/
def serverDecode : Prog Collective (Fin x.tokens → V) (Routed V x.tokens) :=
  .call .server (m.allRouted x contrib) fun y => .ret { y }

/-- The branch of `_should_use_rank0_cpu_server`. -/
def rank0CpuServer : Prog Collective (Fin x.tokens → V) (Routed V x.tokens) :=
  if m.rank = 0 then
    if m.cpuBackend then .call .broadcast (m.routed x contrib) fun y => .ret { y } else .raise
  else .call .broadcast 0 fun y => .ret { y }

/-- The CPU branch that reduces on a stream of its own. -/
def asyncCpu : Prog Collective (Fin x.tokens → V) (Routed V x.tokens) :=
  if m.cpuBackend then
    if m.shouldUseCpuHostReduce x then
      .call .hostFloatAllreduce (m.routed x contrib) fun y => .ret { y }
    else
      .call .allReduce (m.routed x contrib) fun y =>
        if 0 < m.moeReduceCastChunkTokens ∧ m.moeReduceCastChunkTokens < x.tokens then
          .ret { y, reducedMoeReady := true }
        else .ret { y }
  else .raise

/-- The plain CPU branch. -/
def plainCpu : Prog Collective (Fin x.tokens → V) (Routed V x.tokens) :=
  if m.cpuBackend then
    if m.shouldUseCpuHostReduce x then
      .call .hostFloatAllreduce (m.routed x contrib) fun y => .ret { y }
    else .ret { y := m.routed x contrib }
  else .raise

/-- The branches of `forward`, in their order. -/
def branches : Prog Collective (Fin x.tokens → V) (Routed V x.tokens) :=
  if m.routedExpertsCpu && m.shouldUseGpuPrefillMoe x then .ret (m.prefillOnGpu x contrib)
  else if m.routedExpertsCpu && m.shouldUseGpuGgufPrefillMoe x then .ret (m.onGpu x contrib)
  else if m.routedExpertsCpu && m.shouldUseGpuGgufDecodeGrouped x then .ret (m.onGpu x contrib)
  else if m.routedExpertsCpu && m.shouldUseGpuGgufDecodeActiveExpert x then .ret (m.onGpu x contrib)
  else if m.routedExpertsCpu && m.shouldUseGpuSpecToken2Moe x then .ret (m.onGpu x contrib)
  else if m.routedExpertsCpu && m.shouldUseGpuDecodeActiveMoe x then m.decodeActive x contrib shared
  else if m.routedExpertsCpu && m.shouldUseInProcessCpuServer x then m.serverDecode x contrib
  else if m.routedExpertsCpu && m.shouldUseExternalCpuServer x then m.serverDecode x contrib
  else if m.routedExpertsCpu && m.shouldUseRank0CpuServer x then m.rank0CpuServer x contrib
  else if m.routedExpertsCpu && m.cpuMoeInprocServerEnabled && m.rank ≠ 0 then
    .ret { y := 0, usedRemoteOnly := true }
  else if m.routedExpertsCpu && m.moeAsyncAllreduce && decide (1 < m.worldSize) &&
      m.allreduceStream then
    m.asyncCpu x contrib
  else if m.routedExpertsCpu then m.plainCpu x contrib
  else .ret { y := m.routed x contrib }

/-- The negated condition of the reduction at the end. -/
def skipsReduction (r : Routed V x.tokens) : Bool :=
  m.routedExpertsCpu &&
    ((m.moeAsyncAllreduce && !r.usedGpuPrefillMoe && !r.usedRemoteOnly) ||
      m.shouldUseCpuHostReduce x || m.shouldUseInProcessCpuServer x ||
      m.shouldUseExternalCpuServer x || m.shouldUseRank0CpuServer x)

/-- The reduction at the end of `forward`. -/
def reduceRouted (r : Routed V x.tokens) :
    Prog Collective (Fin x.tokens → V) (Routed V x.tokens) :=
  if !r.reducedMoeReady && decide (1 < m.worldSize) && !m.skipsReduction x r then
    .call (if m.customReducer x then .customAllreduce else .allReduce) r.y fun y =>
      if 0 < m.moeReduceCastChunkTokens ∧ m.moeReduceCastChunkTokens < x.tokens then
        .ret { r with y := m.finalizeReducedMoe x shared y, reducedMoe := true }
      else if m.fusedMoeFinalize x then .ret { r with y := y + shared, reducedMoe := true }
      else .ret { r with y }
  else .ret r

/-- What `forward` returns. -/
def finalize (r : Routed V x.tokens) : Fin x.tokens → V :=
  let r :=
    if r.reducedMoeReady && !r.reducedMoe then
      { r with y := m.finalizeReducedMoe x shared r.y, reducedMoe := true }
    else r
  if r.reducedMoe then r.y else r.y + shared

/-- `MoE.forward` on a rank. -/
def forward : Prog Collective (Fin x.tokens → V) (Fin x.tokens → V) :=
  (m.branches x contrib shared).bind fun r =>
    (m.reduceRouted x shared r).bind fun r => .ret (m.finalize x shared r)

end Forward

end MoE

end PocketMoE.Runtime
