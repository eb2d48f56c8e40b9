import PocketMoE.Runtime.MoE

/-!
# What a rank exchanges

`MoE.forward` enters one collective at most. `MoE.exchange` says which one, from the configuration
and the number of tokens alone, and `forward_eq` that `forward` is this exchange: the chunk loops
write every row, and the flags `reduced_moe_ready`, `reduced_moe` and `used_gpu_prefill_moe` come to
a single addition of the shared expert, or to none.
-/

namespace PocketMoE.Runtime
open PocketMoE.Lib

/-- How a rank gets from its own experts' sum to its result. -/
inductive Exchange where
  /-- It raises. -/
  | raises
  /-- It keeps its own sum. -/
  | alone
  /-- All ranks' sums are added up, and the shared expert's output if `adds`. -/
  | sums (op : Collective) (adds : Bool)
  /-- It takes the server's answer. -/
  | served
  /-- It takes the sum of rank 0. -/
  | broadcast
deriving DecidableEq

namespace MoE

section Exchanges

variable (m : MoE) (x : Batch)

/-- A branch on the GPU that leaves the reduction to the end is taken. -/
def usesGpu : Bool :=
  m.shouldUseGpuPrefillMoe x || m.shouldUseGpuGgufPrefillMoe x ||
    m.shouldUseGpuGgufDecodeGrouped x || m.shouldUseGpuGgufDecodeActiveExpert x ||
    m.shouldUseGpuSpecToken2Moe x

/-- A predicate holds that stands for a branch with a reduction of its own, whether or not this
branch is taken. -/
def reducedElsewhere : Bool :=
  m.shouldUseCpuHostReduce x || m.shouldUseInProcessCpuServer x ||
    m.shouldUseExternalCpuServer x || m.shouldUseRank0CpuServer x

/-- The rank leaves all experts to rank 0. -/
def remoteOnly : Bool := m.cpuMoeInprocServerEnabled && decide (m.rank ≠ 0)

/-- The reduction at the end, unless it is skipped. -/
def exchangeAtEnd : Exchange :=
  if decide (1 < m.worldSize) && !(m.routedExpertsCpu && m.reducedElsewhere x) then
    .sums (if m.customReducer x then .customAllreduce else .allReduce) true
  else .alone

/-- The exchange of the branch of `_should_use_gpu_decode_active_moe`. -/
def exchangeActive : Exchange :=
  if m.overlapSharedReduce then .sums .allReduce (m.fusedMoeFinalize x)
  else if m.overlapReduce then .sums .allReduce true
  else m.exchangeAtEnd x

/-- The exchange of the CPU branches without a server. -/
def exchangeCpu : Exchange :=
  if !m.cpuBackend then .raises
  else if m.shouldUseCpuHostReduce x then .sums .hostFloatAllreduce true
  else if m.moeAsyncAllreduce then
    if decide (1 < m.worldSize) && m.allreduceStream then .sums .allReduce true else .alone
  else m.exchangeAtEnd x

/-- The exchange of a rank. -/
def exchange : Exchange :=
  if !m.routedExpertsCpu || m.usesGpu x then m.exchangeAtEnd x
  else if m.shouldUseGpuDecodeActiveMoe x then m.exchangeActive x
  else if m.shouldUseInProcessCpuServer x || m.shouldUseExternalCpuServer x then .served
  else if m.shouldUseRank0CpuServer x then
    if decide (m.rank = 0) && !m.cpuBackend then .raises else .broadcast
  else if m.remoteOnly then m.exchangeAtEnd x
  else m.exchangeCpu x

end Exchanges

variable {V : Type*} [AddCommMonoid V] {m : MoE} {x : Batch} {contrib : Nat → Fin x.tokens → V}
  {shared : Fin x.tokens → V}

variable (m x contrib shared) in
/-- The exchange as a program. -/
def run : Exchange → Prog Collective (Fin x.tokens → V) (Fin x.tokens → V)
  | .raises => .raise
  | .alone => .ret (m.routed x contrib + shared)
  | .sums op adds =>
    .call op (m.routed x contrib) fun y => .ret (if adds then y + shared else y)
  | .served => .call .server (m.allRouted x contrib) fun y => .ret (y + shared)
  | .broadcast =>
    .call .broadcast (if m.rank = 0 then m.routed x contrib else 0) fun y => .ret (y + shared)

/-! ## Chunk loops -/

omit [AddCommMonoid V] in
lemma copyChunks_eq {n chunk : Nat} (pos : 0 < chunk) (out part : Fin n → V) :
    copyChunks chunk out part = part := by
  have rows : ∀ count, ∀ i : Fin n, (i : Nat) < count * chunk →
      (List.range count).foldl (fun (out : Fin n → V) b i =>
        if b * chunk ≤ i ∧ i < (b + 1) * chunk then part i else out i) out i = part i := by
    intro count
    induction count with
    | zero =>
      intro i lt
      rw [Nat.zero_mul] at lt
      exact absurd lt (Nat.not_lt_zero _)
    | succ count ih =>
      intro i lt
      rw [List.range_succ, List.foldl_append, List.foldl_cons, List.foldl_nil]
      split
      case isTrue => rfl
      case isFalse outside => exact ih i (Nat.lt_of_not_le fun ge => outside ⟨ge, lt⟩)
  have whole := Nat.div_add_mod (n + chunk - 1) chunk
  have rest := Nat.mod_lt (n + chunk - 1) pos
  rw [Nat.mul_comm] at whole
  funext i
  refine rows _ i (lt_of_lt_of_le i.isLt ?_)
  generalize (n + chunk - 1) / chunk * chunk = written at whole ⊢
  generalize (n + chunk - 1) % chunk = isOver at whole rest
  omega

lemma finalizeReducedMoe_eq (y : Fin x.tokens → V) :
    m.finalizeReducedMoe x shared y = y + shared := by
  unfold finalizeReducedMoe
  split
  case isTrue chunked => exact copyChunks_eq chunked.1 _ _
  case isFalse => rfl

lemma prefillOnGpu_eq : m.prefillOnGpu x contrib = m.onGpu x contrib := by
  unfold prefillOnGpu onGpu
  split
  case isTrue chunked => rw [copyChunks_eq chunked.1]
  case isFalse => rfl

/-! ## The end of `forward` -/

variable (m x shared) in
/-- `forward` after the branches. -/
def ending (r : Routed V x.tokens) : Prog Collective (Fin x.tokens → V) (Fin x.tokens → V) :=
  (m.reduceRouted x shared r).bind fun r => .ret (m.finalize x shared r)

lemma ending_ready {r : Routed V x.tokens} (ready : r.reducedMoeReady = true) :
    m.ending x shared r = .ret (if r.reducedMoe then r.y else r.y + shared) := by
  cases reduced : r.reducedMoe with
  | true => simp [ending, reduceRouted, finalize, ready, reduced]
  | false => simp [ending, reduceRouted, finalize, ready, reduced, finalizeReducedMoe_eq]

lemma ending_open {r : Routed V x.tokens} (ready : r.reducedMoeReady = false)
    (reduced : r.reducedMoe = false) :
    m.ending x shared r =
      if decide (1 < m.worldSize) && !m.skipsReduction x r then
        .call (if m.customReducer x then .customAllreduce else .allReduce) r.y fun y =>
          .ret (y + shared)
      else .ret (r.y + shared) := by
  cases skips : decide (1 < m.worldSize) && !m.skipsReduction x r with
  | false => simp [ending, reduceRouted, finalize, ready, reduced, skips]
  | true =>
    simp only [ending, reduceRouted, ready, skips, Bool.not_false, Bool.true_and, if_true,
      Prog.call_bind]
    congr 1
    funext y
    split
    · simp [finalize, finalizeReducedMoe_eq]
    · split
      · simp [finalize]
      · simp [finalize, reduced]

lemma ending_atEnd {r : Routed V x.tokens} (y : r.y = m.routed x contrib)
    (ready : r.reducedMoeReady = false) (reduced : r.reducedMoe = false)
    (included : m.routedExpertsCpu = true →
      (m.moeAsyncAllreduce && !r.usedGpuPrefillMoe && !r.usedRemoteOnly) = false) :
    m.ending x shared r = m.run x contrib shared (m.exchangeAtEnd x) := by
  have skips : m.skipsReduction x r = (m.routedExpertsCpu && m.reducedElsewhere x) := by
    cases cpu : m.routedExpertsCpu with
    | false => simp only [skipsReduction, cpu, Bool.false_and]
    | true => simp only [skipsReduction, cpu, included cpu, reducedElsewhere, Bool.false_or]
  rw [ending_open ready reduced, skips, y, exchangeAtEnd]
  split
  · rfl
  · rfl

/-! ## The branches -/

variable (m x contrib shared) in
lemma forward_eq_bind : m.forward x contrib shared =
    (m.branches x contrib shared).bind (m.ending x shared) := rfl

lemma ending_onGpu :
    m.ending x shared (m.onGpu x contrib) = m.run x contrib shared (m.exchangeAtEnd x) :=
  ending_atEnd rfl rfl rfl fun _ => by simp [onGpu]

lemma ending_elsewhere (cpu : m.routedExpertsCpu = true) (elsewhere : m.reducedElsewhere x = true)
    (y : Fin x.tokens → V) : m.ending x shared { y } = .ret (y + shared) := by
  have skips : m.skipsReduction x ({ y } : Routed V x.tokens) = true := by
    simp only [reducedElsewhere, Bool.or_eq_true] at elsewhere
    simp only [skipsReduction, cpu, Bool.true_and, Bool.or_eq_true]
    tauto
  rw [ending_open rfl rfl, skips, Bool.not_true, Bool.and_false]
  rfl

lemma ending_async (cpu : m.routedExpertsCpu = true) (async : m.moeAsyncAllreduce = true)
    (y : Fin x.tokens → V) : m.ending x shared { y } = .ret (y + shared) := by
  have skips : m.skipsReduction x ({ y } : Routed V x.tokens) = true := by
    simp [skipsReduction, cpu, async]
  rw [ending_open rfl rfl, skips, Bool.not_true, Bool.and_false]
  rfl

lemma decodeActive_eq : (m.decodeActive x contrib shared).bind (m.ending x shared) =
    m.run x contrib shared (m.exchangeActive x) := by
  unfold decodeActive exchangeActive
  split
  case isTrue =>
    simp only [Prog.call_bind, Prog.ret_bind, ending_ready, run, if_true]
  case isFalse =>
    split
    case isTrue => simp only [Prog.call_bind, Prog.ret_bind, ending_ready, run, if_true,
      Bool.false_eq_true, if_false]
    case isFalse => exact ending_onGpu

lemma serverDecode_eq (cpu : m.routedExpertsCpu = true) (elsewhere : m.reducedElsewhere x = true) :
    (m.serverDecode x contrib).bind (m.ending x shared) = m.run x contrib shared .served := by
  simp only [serverDecode, Prog.call_bind, Prog.ret_bind, ending_elsewhere cpu elsewhere, run]

lemma rank0CpuServer_eq (cpu : m.routedExpertsCpu = true)
    (elsewhere : m.reducedElsewhere x = true) :
    (m.rank0CpuServer x contrib).bind (m.ending x shared) = m.run x contrib shared
      (if decide (m.rank = 0) && !m.cpuBackend then .raises else .broadcast) := by
  unfold rank0CpuServer
  by_cases zero : m.rank = 0
  · cases backend : m.cpuBackend with
    | true => simp [zero, run, ending_elsewhere cpu elsewhere]
    | false => simp [zero, run]
  · simp [zero, run, ending_elsewhere cpu elsewhere]

lemma asyncCpu_eq (cpu : m.routedExpertsCpu = true) (async : m.moeAsyncAllreduce = true)
    (side : (decide (1 < m.worldSize) && m.allreduceStream) = true) :
    (m.asyncCpu x contrib).bind (m.ending x shared) = m.run x contrib shared (m.exchangeCpu x) := by
  unfold asyncCpu exchangeCpu
  cases m.cpuBackend with
  | false => simp [run]
  | true =>
    cases host : m.shouldUseCpuHostReduce x with
    | true =>
      have elsewhere : m.reducedElsewhere x = true := by simp [reducedElsewhere, host]
      simp [run, ending_elsewhere cpu elsewhere]
    | false =>
      simp only [async, side, Bool.not_true, Bool.false_eq_true, if_false, if_true, run,
        Prog.call_bind]
      congr 1
      funext y
      split
      · simp [ending_ready]
      · simp [ending_async cpu async]

lemma plainCpu_eq (cpu : m.routedExpertsCpu = true)
    (noSide : m.moeAsyncAllreduce = true → (decide (1 < m.worldSize) && m.allreduceStream) = false) :
    (m.plainCpu x contrib).bind (m.ending x shared) = m.run x contrib shared (m.exchangeCpu x) := by
  unfold plainCpu exchangeCpu
  cases m.cpuBackend with
  | false => simp [run]
  | true =>
    cases host : m.shouldUseCpuHostReduce x with
    | true =>
      have elsewhere : m.reducedElsewhere x = true := by simp [reducedElsewhere, host]
      simp [run, ending_elsewhere cpu elsewhere]
    | false =>
      cases async : m.moeAsyncAllreduce with
      | true => simp [noSide async, run, ending_async cpu async]
      | false =>
        simp only [Bool.not_true, Bool.false_eq_true, if_false, if_true, Prog.ret_bind]
        exact ending_atEnd rfl rfl rfl fun _ => by rw [async, Bool.false_and, Bool.false_and]

lemma routed_other (inproc : m.cpuMoeInprocServerEnabled = true) (other : m.rank ≠ 0) :
    m.routed x contrib = 0 := by
  have none_ : m.expertsIdx = (0, 0) := by simp [expertsIdx, inproc, other]
  simp [routed, none_]

lemma branches_gpu (cpu : m.routedExpertsCpu = true) (gpu : m.usesGpu x = true) :
    m.branches x contrib shared = .ret (m.onGpu x contrib) := by
  simp only [usesGpu, Bool.or_eq_true] at gpu
  simp only [branches, cpu, Bool.true_and, prefillOnGpu_eq]
  rcases gpu with (((here | here) | here) | here) | here
  · rw [if_pos here]
  · simp [here]
  · simp [here]
  · simp [here]
  · simp [here]

lemma cpu_eq (cpu : m.routedExpertsCpu = true) :
    Prog.bind (if m.remoteOnly then .ret { y := 0, usedRemoteOnly := true }
      else if m.moeAsyncAllreduce && decide (1 < m.worldSize) && m.allreduceStream then
        m.asyncCpu x contrib
      else m.plainCpu x contrib) (m.ending x shared) = m.run x contrib shared
        (if m.remoteOnly then m.exchangeAtEnd x else m.exchangeCpu x) := by
  cases other : m.remoteOnly with
  | true =>
    obtain ⟨inproc, ne⟩ := by
      simpa only [remoteOnly, Bool.and_eq_true, decide_eq_true_eq] using other
    refine ending_atEnd ?_ rfl rfl fun _ => by simp
    exact (routed_other inproc ne).symm
  | false =>
    cases side : m.moeAsyncAllreduce && decide (1 < m.worldSize) && m.allreduceStream with
    | true =>
      rw [Bool.and_assoc, Bool.and_eq_true] at side
      exact asyncCpu_eq cpu side.1 side.2
    | false =>
      refine plainCpu_eq cpu fun async => ?_
      rwa [Bool.and_assoc, async, Bool.true_and] at side

/-- `forward` is the exchange of the rank. -/
theorem forward_eq : m.forward x contrib shared = m.run x contrib shared (m.exchange x) := by
  rw [forward_eq_bind]
  cases cpu : m.routedExpertsCpu with
  | false =>
    simp only [branches, exchange, cpu, Bool.false_and, Bool.false_eq_true, if_false, Bool.not_false,
      Bool.true_or, if_true, Prog.ret_bind]
    exact ending_atEnd rfl rfl rfl fun yes => absurd (cpu.symm.trans yes) (by decide)
  | true =>
    cases gpu : m.usesGpu x with
    | true =>
      rw [branches_gpu cpu gpu, exchange, gpu, Bool.or_true, if_pos rfl]
      exact ending_onGpu
    | false =>
      obtain ⟨⟨⟨⟨prefill, ggufPrefill⟩, grouped⟩, ggufActive⟩, spec⟩ := by
        simpa only [usesGpu, Bool.or_eq_false_iff] using gpu
      simp only [branches, exchange, cpu, gpu, prefill, ggufPrefill, grouped, ggufActive, spec,
        Bool.true_and, Bool.not_true, Bool.false_or, Bool.false_eq_true, if_false]
      cases active : m.shouldUseGpuDecodeActiveMoe x with
      | true => exact decodeActive_eq
      | false =>
        cases inproc : m.shouldUseInProcessCpuServer x with
        | true => exact serverDecode_eq cpu (by simp [reducedElsewhere, inproc])
        | false =>
          cases external : m.shouldUseExternalCpuServer x with
          | true => exact serverDecode_eq cpu (by simp [reducedElsewhere, external])
          | false =>
            cases rank0 : m.shouldUseRank0CpuServer x with
            | true => exact rank0CpuServer_eq cpu (by simp [reducedElsewhere, rank0])
            | false => exact cpu_eq cpu

end MoE

end PocketMoE.Runtime
