import PocketMoE.Lib.Ranks

/-!
# The worker loop

Tensor-parallel ranks of the C++ engine (`PersistentEngine` and `handle_nonstream`): rank 0 sends a command
to the workers and executes it, the workers execute what they read in `run_worker_loop`. A command is a
fixed sequence of NCCL collectives with checks between them, and a rank on which a check throws goes back
to its loop, or, on rank 0, answers the request with an error.

`inStep_iff`: in every run the ranks stay in lock-step exactly if in each command the checks that throw
first come after the same number of collectives on all ranks. If one rank throws in front of a collective
that another one enters, the other one waits for it, or meets a later command (`nonfinite_logits`).

The command channel delivers what is sent; `Shutdown` comes after the last request.
-/

namespace PocketMoE.Engine
open PocketMoE.Lib.Ranks

/-- What decides about a command's collectives, alike on all ranks. -/
structure TpEngine where
  tpWorld : Nat
  tpWorld_pos : 0 < tpWorld
  layerCount : Nat
  dim : Nat
  vocab : Nat
  localHeadRows : Nat
  prefillChunkTokens : Int
  prefillBatchedAttn : Bool

/-- `WorkerCommand`, with its arguments. -/
inductive WorkerCommand where
  | reset
  | prefill (tokenIds : List Int)
  | decodeStep (lastToken position : Int)
deriving DecidableEq

/-- A collective: the all-reduces of a layer from a position on, and those of `select_token`. -/
inductive TpCollective where
  | attention (layer start count : Nat)
  | moe (layer start count : Nat)
  | gatherLogits (count : Nat)
  | broadcastToken
deriving DecidableEq

/-- `nccl_gather_floats_to_root` and `nccl_broadcast_int32` synchronize, an all-reduce does not. -/
def TpCollective.synchronizes : TpCollective → Bool
  | attention .. => false
  | moe .. => false
  | gatherLogits _ => true
  | broadcastToken => true

namespace TpEngine

variable (e : TpEngine)

/-- The chunks of a prompt: where they start, and their tokens. -/
def prefillChunks (tokenCount : Nat) : List (Nat × Nat) :=
  let chunk := if e.prefillChunkTokens ≤ 0 ∨ (tokenCount : Int) < e.prefillChunkTokens then tokenCount
    else e.prefillChunkTokens.toNat
  (List.range ((tokenCount + chunk - 1) / chunk)).map fun k =>
    (k * chunk, min tokenCount (k * chunk + chunk) - k * chunk)

/-- The all-reduces of a layer on a chunk. -/
def prefillLayer (li : Nat) (chunk : Nat × Nat) : List TpCollective :=
  (if e.prefillBatchedAttn then [.attention li chunk.1 (chunk.2 * e.dim)]
    else (List.range chunk.2).map fun t => .attention li (chunk.1 + t) e.dim) ++
  [.moe li chunk.1 (chunk.2 * e.dim)]

/-- `select_token`. -/
def selectToken : List TpCollective := [.gatherLogits e.localHeadRows, .broadcastToken]

/-- The collectives of a command. -/
def collectives (command : WorkerCommand) : List TpCollective :=
  if e.tpWorld ≤ 1 then []
  else match command with
    | .reset => []
    | .prefill tokenIds =>
      (List.range e.layerCount).flatMap (fun li =>
        (e.prefillChunks tokenIds.length).flatMap (e.prefillLayer li)) ++ e.selectToken
    | .decodeStep _ position =>
      (List.range e.layerCount).flatMap (fun li =>
        [.attention li position.toNat e.dim, .moe li position.toNat e.dim]) ++ e.selectToken

/-- What a command is refused for before anything else. -/
def refuses : WorkerCommand → Bool
  | .reset => false
  | .prefill tokenIds => tokenIds.isEmpty
  | .decodeStep lastToken _ => lastToken < 0 || (e.vocab : Int) ≤ lastToken

/-- What a rank does between two collectives, besides what returns at once: it synchronizes with its
device, or a check throws. -/
inductive Host where
  | synchronize
  | throws
deriving DecidableEq

/-- The operation of a rank. -/
def Host.op : Host → Op TpCollective
  | synchronize => .wait
  | throws => .raise

/-- On each rank, before its first collective, the second one and so on, and after the last. -/
abbrev Between := Fin e.tpWorld → Nat → List Host

/-- A command, and what happens on the ranks. -/
structure Command where
  command : WorkerCommand
  between : e.Between

/-- The collectives, and what a rank does between them. -/
def interleave (between : Nat → List Host) : List TpCollective → List (Op TpCollective)
  | [] => (between 0).map Host.op
  | c :: cs => (between 0).map Host.op ++ .enter c :: ((if c.synchronizes then [.wait] else []) ++
      interleave (fun k => between (k + 1)) cs)

/-- The commands that `run_worker_loop` and rank 0 execute. `reset_session` synchronizes in the end. -/
def execute (c : e.Command) (rank : Fin e.tpWorld) : List (Op TpCollective) :=
  if e.refuses c.command then [.raise]
  else interleave (c.between rank) (e.collectives c.command) ++
    if c.command = .reset then [.wait] else []

/-- Rank 0 and the workers. -/
def ranks : System (Fin e.tpWorld) e.Command TpCollective where
  root := ⟨0, e.tpWorld_pos⟩
  program := e.execute

/-- A request for which `handle_nonstream` sends these commands if nothing throws: its tokens, those that
have been selected, and what happens on the ranks. -/
structure Request where
  resets : e.Between
  tokenIds : List Int
  prefills : e.Between
  decodes : List (Int × e.Between)

variable {e}

/-- The commands of a request. -/
def Request.commands (r : e.Request) : List e.Command :=
  ⟨.reset, r.resets⟩ :: ⟨.prefill r.tokenIds, r.prefills⟩ ::
    r.decodes.mapIdx fun step d => ⟨.decodeStep d.1 (r.tokenIds.length + step), d.2⟩

variable (e)

/-- The commands that rank 0 sends: those of a request up to the first one that throws on rank 0. -/
def sent (requests : List e.Request) : List e.Command :=
  e.ranks.issued (requests.map Request.commands)

/-- In every run collectives meet as they should, no rank is left waiting, and every command is executed
on all ranks. -/
def InStep (requests : List e.Request) : Prop := e.ranks.LockStep (requests.map Request.commands)

/-- The collectives before the first check that throws. -/
def undisturbed (between : Nat → List Host) : Nat → Nat
  | 0 => 0
  | n + 1 => if .throws ∈ between 0 then 0 else undisturbed (fun k => between (k + 1)) n + 1

/-- All ranks get equally far in a command, or all refuse it. -/
def EquallyFar (c : e.Command) : Prop :=
  e.refuses c.command = true ∨ ∀ r q,
    undisturbed (c.between r) (e.collectives c.command).length =
      undisturbed (c.between q) (e.collectives c.command).length

variable {e}

lemma entered_host (hosts : List Host) (ops : List (Op TpCollective)) :
    entered (hosts.map Host.op ++ ops) = if .throws ∈ hosts then [] else entered ops := by
  induction hosts with
  | nil => rfl
  | cons host hosts ih =>
    cases host with
    | synchronize => simpa [Host.op, entered] using ih
    | throws => simp [Host.op, entered]

lemma entered_interleave (between : Nat → List Host) (cs : List TpCollective)
    (ops : List (Op TpCollective)) (nothing : entered ops = []) :
    entered (interleave between cs ++ ops) = cs.take (undisturbed between cs.length) := by
  induction cs generalizing between with
  | nil =>
    rw [interleave, entered_host, nothing, ite_self, List.take_nil]
  | cons c cs ih =>
    rw [interleave, List.append_assoc, entered_host, List.length_cons, undisturbed]
    by_cases throws : .throws ∈ between 0
    · rw [if_pos throws, if_pos throws, List.take_zero]
    · rw [if_neg throws, if_neg throws, List.take_succ_cons, ← ih]
      cases c.synchronizes with
      | true => rfl
      | false => rfl

lemma entered_execute (c : e.Command) (rank : Fin e.tpWorld) :
    entered (e.execute c rank) = if e.refuses c.command then []
      else (e.collectives c.command).take
        (undisturbed (c.between rank) (e.collectives c.command).length) := by
  unfold execute
  split_ifs with refused reset
  · rfl
  · exact entered_interleave _ _ _ rfl
  · exact entered_interleave _ _ _ rfl

lemma undisturbed_le (between : Nat → List Host) (n : Nat) : undisturbed between n ≤ n := by
  induction n generalizing between with
  | zero => exact le_rfl
  | succ n ih =>
    unfold undisturbed
    split_ifs
    · exact Nat.zero_le _
    · exact Nat.succ_le_succ (ih _)

lemma equallyFar_iff (c : e.Command) :
    e.EquallyFar c ↔ ∀ r q, entered (e.execute c r) = entered (e.execute c q) := by
  unfold EquallyFar
  simp only [entered_execute]
  by_cases refused : e.refuses c.command = true
  · simp [refused]
  · simp only [refused, Bool.false_eq_true, if_false, false_or]
    refine forall₂_congr fun r q => ⟨fun far => by rw [far], fun same => ?_⟩
    have lengths := congrArg List.length same
    rwa [List.length_take_of_le (undisturbed_le ..), List.length_take_of_le (undisturbed_le ..)]
      at lengths

/-- The ranks stay in lock-step exactly if they get equally far in every command. -/
theorem inStep_iff (e : TpEngine) (requests : List e.Request) :
    e.InStep requests ↔ ∀ c ∈ e.sent requests, e.EquallyFar c := by
  unfold InStep
  rw [System.lockStep_iff_same]
  exact forall₂_congr fun c _ => (equallyFar_iff c).symm

/-- Two ranks of an engine with one layer. -/
def twoRanks : TpEngine where
  tpWorld := 2
  tpWorld_pos := Nat.two_pos
  layerCount := 1
  dim := 4096
  vocab := 129280
  localHeadRows := 64640
  prefillChunkTokens := 4096
  prefillBatchedAttn := true

/-- Logits that are not finite on the worker: it throws before the logits are gathered. -/
def onWorker : twoRanks.Between := fun rank k =>
  if rank.val = 1 ∧ k = 2 then [.synchronize, .throws] else []

/-- A request with a decode step in which they come. -/
def nonfinite : twoRanks.Request where
  resets _ _ := []
  tokenIds := [5]
  prefills _ _ := []
  decodes := [(7, onWorker)]

/-- Rank 0 waits for the worker's logits. -/
theorem nonfinite_logits : ¬ twoRanks.InStep [nonfinite] := by
  intro inStep
  have sent : twoRanks.sent [nonfinite] =
      [⟨.reset, fun _ _ => []⟩, ⟨.prefill [5], fun _ _ => []⟩, ⟨.decodeStep 7 1, onWorker⟩] := rfl
  have member : ⟨.decodeStep 7 1, onWorker⟩ ∈ twoRanks.sent [nonfinite] := by
    rw [sent]
    exact List.mem_of_mem_getLast? rfl
  have same := System.LockStep.same inStep _ member ⟨0, by decide⟩ ⟨1, by decide⟩
  exact absurd same (by decide)

end TpEngine

end PocketMoE.Engine
