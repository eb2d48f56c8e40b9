import PocketMoE.Lib.Schedule
import Mathlib.Data.Nat.Pairing
import Mathlib.Data.Prod.Lex
import Mathlib.Tactic.Ring
import Mathlib.Algebra.BigOperators.Group.Finset.Basic

/-!
# The team of worker threads

Model of `PersistentParallelTeam` (`deepseek_cpu_moe_ext.cpp`). One thread, the caller, goes through
a script of `parallel_for` calls and settings of the thread count; the workers wait for work, run
the body on their part of the range and report. Each step is what a thread does while it holds the
mutex once, or one index of a body outside of it.

A thread that waits on a condition variable is asleep until it is notified, or wakes up for no
reason; then it looks at its condition again. The schedule says whose step is next.
-/

namespace PocketMoE.Backend.ParallelTeam
open PocketMoE.Lib

/-! ## The threads -/

/-- What the caller does next: change `g_omp_num_threads`, or call `parallel_for`. -/
inductive Command where
  | setThreads (n : Int)
  | parallelFor (first last : Int)
  deriving DecidableEq

/-- Where the caller is. `join i` waits for worker `i` to end. -/
inductive CallerPc where
  | idle
  | ensure
  | stop
  | join (i : Nat)
  | stopped
  | start
  | post
  | wait
  | asleep
  deriving DecidableEq

/-- Where a worker is. `run fn i e` is in the body of the job `fn`, which is `none` for the null
pointer, at index `i` of a part that ends at `e`. -/
inductive WorkerPc where
  | check
  | asleep
  | run (fn : Option Nat) (i e : Int)
  | report
  | exited
  deriving DecidableEq

/-- A worker thread and its `seen`. -/
structure Worker where
  pc : WorkerPc
  seen : Nat

/-- The fields of the team, where the threads are, and for the statements the ranges of all calls so
far and the indices that the bodies were run on, each with the number of its call. -/
structure State where
  begin_ : Int
  end_ : Int
  fn : Option Nat
  generation : Nat
  nThreads : Nat
  finished : Nat
  started : Bool
  stop : Bool
  hasWork : Bool
  workers : Nat → Worker
  size : Nat
  ompNumThreads : Int
  pc : CallerPc
  args : Int × Int
  script : List Command
  calls : List (Int × Int)
  executed : List (Nat × Int)

/-- The team before the first call. -/
def start (ompNumThreads : Int) (script : List Command) : State where
  begin_ := 0
  end_ := 0
  fn := none
  generation := 0
  nThreads := 1
  finished := 0
  started := false
  stop := false
  hasWork := false
  workers := fun _ => ⟨.exited, 0⟩
  size := 0
  ompNumThreads := ompNumThreads
  pc := .idle
  args := (0, 0)
  script := script
  calls := []
  executed := []

/-! ## The steps -/

/-- A sleeping worker goes back to look at its condition. -/
def Worker.wake (w : Worker) : Worker := if w.pc = .asleep then { w with pc := .check } else w

namespace State

/-- The argument of `ensure`. -/
def threads (s : State) : Nat := if 0 < s.ompNumThreads then s.ompNumThreads.toNat else 1

/-- A step of the caller. -/
def callerStep (s : State) : State :=
  match s.pc with
  | .idle =>
    match s.script with
    | [] => s
    | .setThreads n :: script => { s with script, ompNumThreads := n }
    | .parallelFor first last :: script =>
      let s := { s with script, calls := s.calls ++ [(first, last)] }
      if last ≤ first then s else { s with pc := .ensure, args := (first, last) }
  | .ensure => if s.started ∧ s.nThreads = s.threads then { s with pc := .post }
    else { s with pc := .stop }
  | .stop =>
    if s.started then
      { s with
        stop := true
        generation := s.generation + 1
        workers := fun i => (s.workers i).wake
        pc := .join 0 }
    else { s with pc := .start }
  | .join i =>
    if i < s.size then
      if (s.workers i).pc = .exited then { s with pc := .join (i + 1) } else s
    else { s with size := 0, pc := .stopped }
  | .stopped => { s with started := false, stop := false, pc := .start }
  | .start =>
    { s with
      nThreads := s.threads
      stop := false
      generation := 0
      finished := 0
      hasWork := false
      workers := fun _ => ⟨.check, 0⟩
      size := s.threads
      started := true
      pc := .post }
  | .post =>
    { s with
      begin_ := s.args.1
      end_ := s.args.2
      fn := some (s.calls.length - 1)
      finished := 0
      hasWork := true
      generation := s.generation + 1
      workers := fun i => (s.workers i).wake
      pc := .wait }
  | .wait => if s.hasWork then { s with pc := .asleep } else { s with pc := .idle }
  | .asleep => s

/-- `chunk` -/
def chunk (s : State) : Int := (s.end_ - s.begin_ + s.nThreads - 1) / s.nThreads

/-- Where the part of a worker begins. -/
def partBegin (s : State) (tid : Nat) : Int := s.begin_ + tid * s.chunk

/-- Where the part of a worker ends. -/
def partEnd (s : State) (tid : Nat) : Int := min s.end_ (s.partBegin tid + s.chunk)

/-- A worker of the team with other contents. -/
def put (s : State) (tid : Nat) (w : Worker) : State :=
  { s with workers := Function.update s.workers tid w }

/-- A step of a worker. -/
def workerStep (s : State) (tid : Nat) : State :=
  let w := s.workers tid
  match w.pc with
  | .check =>
    if s.stop then s.put tid { w with pc := .exited }
    else if s.generation ≠ w.seen then
      s.put tid ⟨.run s.fn (s.partBegin tid) (s.partEnd tid), s.generation⟩
    else s.put tid { w with pc := .asleep }
  | .run (some call) i e =>
    if i < e then
      { s.put tid { w with pc := .run (some call) (i + 1) e } with
        executed := s.executed ++ [(call, i)] }
    else s.put tid { w with pc := .report }
  | .run none _ _ => s.put tid { w with pc := .report }
  | .report =>
    let s := { s.put tid { w with pc := .check } with finished := s.finished + 1 }
    if s.finished = s.nThreads then
      { s with
        hasWork := false
        pc := if s.pc = .asleep then .wait else s.pc }
    else s
  | .asleep => s
  | .exited => s

end State

/-- The threads; waking up for no reason is a step of its own. -/
inductive Actor where
  | caller
  | worker (tid : Nat)
  | wakeCaller
  | wakeWorker (tid : Nat)
  deriving DecidableEq

/-- Whose steps are needed to get on. -/
def Actor.Thread : Actor → Prop
  | .caller | .worker _ => True
  | .wakeCaller | .wakeWorker _ => False

/-- A step of the schedule. The workers of the team are the first `size` ones. -/
def step : Actor → State → State
  | .caller, s => s.callerStep
  | .worker tid, s => if tid < s.size then s.workerStep tid else s
  | .wakeCaller, s => if s.pc = .asleep then { s with pc := .wait } else s
  | .wakeWorker tid, s => if tid < s.size then s.put tid (s.workers tid).wake else s

/-! ## The parts of a range -/

namespace State

variable {s : State}

/-- Whose part an index is in. -/
def owner (s : State) (x : Int) : Nat := ((x - s.begin_) / s.chunk).toNat

lemma chunk_pos (nonempty : s.begin_ < s.end_) (threads : 0 < s.nThreads) : 0 < s.chunk := by
  have positive : (0 : Int) < s.nThreads := by omega
  have one : 1 ≤ s.chunk := by
    rw [chunk, Int.le_ediv_iff_mul_le positive]
    omega
  omega

lemma length_le (threads : 0 < s.nThreads) : s.end_ - s.begin_ ≤ s.nThreads * s.chunk := by
  have positive : (0 : Int) < s.nThreads := by omega
  have below := Int.lt_mul_ediv_self_add (x := s.end_ - s.begin_ + s.nThreads - 1) positive
  unfold chunk
  omega

lemma owner_lt (nonempty : s.begin_ < s.end_) (threads : 0 < s.nThreads) {x : Int}
    (low : s.begin_ ≤ x) (high : x < s.end_) : s.owner x < s.nThreads := by
  have positive := chunk_pos nonempty threads
  have all := length_le threads
  have below : (x - s.begin_) / s.chunk < s.nThreads := by
    rw [Int.ediv_lt_iff_lt_mul positive]
    omega
  have nonneg : 0 ≤ (x - s.begin_) / s.chunk := Int.ediv_nonneg (by omega) (by omega)
  unfold owner
  omega

lemma mem_part (nonempty : s.begin_ < s.end_) (threads : 0 < s.nThreads) {x : Int}
    (low : s.begin_ ≤ x) (high : x < s.end_) (tid : Nat) :
    s.partBegin tid ≤ x ∧ x < s.partEnd tid ↔ s.owner x = tid := by
  have positive := chunk_pos nonempty threads
  have nonneg : 0 ≤ (x - s.begin_) / s.chunk := Int.ediv_nonneg (by omega) (by omega)
  have quotient : s.owner x = tid ↔ (x - s.begin_) / s.chunk = tid := by
    unfold owner
    omega
  have least : (tid : Int) ≤ (x - s.begin_) / s.chunk ↔ s.partBegin tid ≤ x := by
    rw [Int.le_ediv_iff_mul_le positive, partBegin]
    omega
  have most : (x - s.begin_) / s.chunk < (tid : Int) + 1 ↔ x < s.partBegin tid + s.chunk := by
    rw [Int.ediv_lt_iff_lt_mul positive, partBegin, Int.add_mul, Int.one_mul]
    omega
  rw [partEnd, lt_min_iff, quotient, ← least, ← most]
  omega

lemma partBegin_ge (nonempty : s.begin_ < s.end_) (threads : 0 < s.nThreads) (tid : Nat) :
    s.begin_ ≤ s.partBegin tid := by
  have : 0 ≤ (tid : Int) * s.chunk :=
    Int.mul_nonneg (by omega) (Int.le_of_lt (chunk_pos nonempty threads))
  unfold partBegin
  omega

/-- What a worker computes is between `begin` and `end + n_threads`: `long long` holds it if it holds
these. -/
lemma part_bounds (nonempty : s.begin_ < s.end_) {tid : Nat} (inside : tid < s.nThreads) :
    s.begin_ ≤ s.partBegin tid ∧ s.partBegin tid + s.chunk < s.end_ + s.nThreads := by
  have threads : 0 < s.nThreads := by omega
  refine ⟨partBegin_ge nonempty threads tid, ?_⟩
  have positive : (0 : Int) < s.nThreads := by omega
  have all : s.chunk * s.nThreads ≤ s.end_ - s.begin_ + s.nThreads - 1 :=
    Int.ediv_mul_le _ (Int.ne_of_gt positive)
  have part : ((tid : Int) + 1) * s.chunk ≤ s.nThreads * s.chunk :=
    Int.mul_le_mul_of_nonneg_right (by omega) (Int.le_of_lt (chunk_pos nonempty threads))
  rw [Int.add_mul, Int.one_mul, Int.mul_comm s.nThreads] at part
  unfold partBegin
  omega

end State

/-! ## The invariant -/

/-- A worker that has seen the generation and waits for the next one. -/
def Worker.Rested (w : Worker) (generation : Nat) : Prop :=
  (w.pc = .check ∨ w.pc = .asleep) ∧ w.seen = generation

instance (w : Worker) (generation : Nat) : Decidable (w.Rested generation) :=
  inferInstanceAs (Decidable (_ ∧ _))

/-- The worker has run the body on this index, if it is in its part. -/
def Worker.passed (w : Worker) (generation : Nat) (x : Int) : Bool :=
  decide (w.seen = generation) &&
    match w.pc with
    | .run _ i _ => decide (x < i)
    | _ => true

/-- Where a worker is in its part of a job. -/
inductive Worker.Part (w : Worker) (generation : Nat) (fn : Option Nat) (first last : Int) :
    Prop where
  | pending : w.pc = .check → w.seen ≠ generation → w.Part generation fn first last
  | running (x : Int) : w.pc = .run fn x last → w.seen = generation → first ≤ x →
    x ≤ max first last → w.Part generation fn first last
  | reporting : w.pc = .report → w.seen = generation → w.Part generation fn first last
  | rested : w.Rested generation → w.Part generation fn first last

namespace State

/-- How many workers have finished the generation. -/
def restedCount (s : State) : Nat :=
  ∑ tid ∈ Finset.range s.size, if (s.workers tid).Rested s.generation then 1 else 0

/-- All workers wait for work. -/
structure Quiet (s : State) : Prop where
  stop : s.stop = false
  hasWork : s.hasWork = false
  size : s.size = if s.started then s.nThreads else 0
  threads : s.started = true → 0 < s.nThreads
  rested : ∀ tid < s.size, (s.workers tid).Rested s.generation

/-- The job of the last call was given out. -/
structure Posted (s : State) : Prop where
  started : s.started = true
  size : s.size = s.nThreads
  threads : 0 < s.nThreads
  range : (s.begin_, s.end_) = s.args
  nonempty : s.begin_ < s.end_

/-- Where a worker is in its part of the job of the team. -/
def Part (s : State) (tid : Nat) : Prop :=
  (s.workers tid).Part s.generation s.fn (s.partBegin tid) (s.partEnd tid)

/-- The workers are at the job of the last call, and some have not finished it. -/
structure Working (s : State) : Prop extends Posted s where
  stop : s.stop = false
  hasWork : s.hasWork = true
  fn : s.fn = some (s.calls.length - 1)
  part : ∀ tid < s.size, s.Part tid
  finished : s.finished = s.restedCount
  unfinished : s.finished < s.nThreads

/-- All workers are about to end, the first ones have. -/
structure Stopping (s : State) (joined : Nat) : Prop where
  stop : s.stop = true
  ending : ∀ tid < s.size, (s.workers tid).pc = .check ∨ (s.workers tid).pc = .exited
  joined : ∀ tid < s.size, tid < joined → (s.workers tid).pc = .exited

/-- What holds where the caller is. -/
def Phase (s : State) : CallerPc → Prop
  | .idle | .ensure | .stop => s.Quiet
  | .join tid => s.Stopping tid
  | .stopped | .start => s.size = 0
  | .post => s.Quiet ∧ s.started = true
  | .wait => s.Working ∨ s.Quiet ∧ s.Posted
  | .asleep => s.Working

/-- The body of the last call was run on this index, if it is in the range. -/
def reached (s : State) (x : Int) : CallerPc → Bool
  | .idle => true
  | .wait | .asleep => (s.workers (s.owner x)).passed s.generation x
  | _ => false

/-- The invariant. -/
structure Inv (s : State) : Prop where
  phase : s.Phase s.pc
  call : s.pc ≠ .idle → s.calls.getLast? = some s.args ∧ s.args.1 < s.args.2
  counts : ∀ j range, s.calls[j]? = some range → ∀ x, s.executed.count (j, x) =
    if range.1 ≤ x ∧ x < range.2 ∧ (j + 1 = s.calls.length → s.reached x s.pc) then 1 else 0
  later : ∀ j x, s.calls.length ≤ j → s.executed.count (j, x) = 0

end State

/-! ## Who gets on -/

/-- The caller has a step that gets on. -/
def State.callerReady (s : State) : CallerPc → Prop
  | .idle => s.script ≠ []
  | .join joined => joined < s.size → (s.workers joined).pc = .exited
  | .wait => s.hasWork = false
  | .asleep => False
  | _ => True

/-- A worker has a step that gets on. -/
def Worker.ready (w : Worker) (stop : Bool) (generation : Nat) : Prop :=
  match w.pc with
  | .check => stop = true ∨ generation ≠ w.seen
  | .asleep | .exited => False
  | _ => True

/-- The thread has a step that gets on. -/
def Ready : Actor → State → Prop
  | .caller, s => s.callerReady s.pc
  | .worker tid, s => tid < s.size ∧ (s.workers tid).ready s.stop s.generation
  | .wakeCaller, _ | .wakeWorker _, _ => False

/-! ## Steps that get nowhere -/

namespace State

variable {s t : State} {tid : Nat} {w : Worker}

@[simp] lemma put_workers_self : (s.put tid w).workers tid = w := Function.update_self ..

lemma put_workers_of_ne {other : Nat} (ne : other ≠ tid) :
    (s.put tid w).workers other = s.workers other := Function.update_of_ne ne ..

lemma put_self : s.put tid (s.workers tid) = s := by
  rw [put, Function.update_eq_self]

lemma sum_put (value : Nat → Worker → Nat) (inside : tid < s.size) (w : Worker) :
    (∑ i ∈ Finset.range s.size, value i ((s.put tid w).workers i)) + value tid (s.workers tid) =
      (∑ i ∈ Finset.range s.size, value i (s.workers i)) + value tid w := by
  have member : tid ∈ Finset.range s.size := Finset.mem_range.mpr inside
  have rest : ∑ i ∈ (Finset.range s.size).erase tid, value i ((s.put tid w).workers i) =
      ∑ i ∈ (Finset.range s.size).erase tid, value i (s.workers i) :=
    Finset.sum_congr rfl fun i other => by rw [put_workers_of_ne (Finset.ne_of_mem_erase other)]
  rw [← Finset.add_sum_erase _ _ member, ← Finset.add_sum_erase _ (fun i => value i _) member, rest,
    put_workers_self]
  ring

lemma not_ready_rested {tid : Nat} (stop : s.stop = false)
    (calm : (s.workers tid).Rested s.generation) : ¬ Ready (.worker tid) s := by
  rintro ⟨-, ready⟩
  unfold Worker.ready at ready
  rcases calm with ⟨pc | pc, seen⟩
  · rw [pc, stop, seen] at ready
    exact ready.elim Bool.false_ne_true fun other => other rfl
  · rwa [pc] at ready

/-- A step that only wakes up a thread or lets it sleep again. -/
inductive Noise (s : State) : State → Prop where
  | same : Noise s s
  | caller (pc : CallerPc) : s.Working → s.pc = .wait ∨ s.pc = .asleep →
    pc = .wait ∨ pc = .asleep → Noise s { s with pc }
  | worker (tid : Nat) (w : Worker) : tid < s.size → s.stop = false →
    (s.workers tid).Rested s.generation → w.Rested s.generation → Noise s (s.put tid w)

lemma restedCount_put (inside : tid < s.size) (old : (s.workers tid).Rested s.generation)
    (new : w.Rested s.generation) : (s.put tid w).restedCount = s.restedCount := by
  have sum := sum_put (fun _ w => if w.Rested s.generation then 1 else 0) inside w
  rw [if_pos old, if_pos new] at sum
  exact Nat.add_right_cancel sum

lemma Quiet.put (quiet : s.Quiet) (new : w.Rested s.generation) : (s.put tid w).Quiet where
  stop := quiet.stop
  hasWork := quiet.hasWork
  size := quiet.size
  threads := quiet.threads
  rested i inside := by
    by_cases here : i = tid
    · rw [here, put_workers_self]
      exact new
    · rw [put_workers_of_ne here]
      exact quiet.rested i inside

lemma Posted.put (posted : s.Posted) : (s.put tid w).Posted := { posted with }

lemma Part.put (part : ∀ i < s.size, s.Part i) (new : (s.put tid w).Part tid) :
    ∀ i < s.size, (s.put tid w).Part i := by
  intro i inside
  by_cases here : i = tid
  · exact here ▸ new
  · unfold Part
    rw [put_workers_of_ne here]
    exact part i inside

lemma Working.put_rested (working : s.Working) (inside : tid < s.size)
    (old : (s.workers tid).Rested s.generation) (new : w.Rested s.generation) :
    (s.put tid w).Working where
  toPosted := working.toPosted.put
  stop := working.stop
  hasWork := working.hasWork
  fn := working.fn
  part := Part.put working.part (.rested (put_workers_self.symm ▸ new))
  finished := working.finished.trans (restedCount_put inside old new).symm
  unfinished := working.unfinished

lemma passed_rested {w : Worker} {generation : Nat} (rested : w.Rested generation) (x : Int) :
    w.passed generation x = true := by
  unfold Worker.passed
  rw [decide_eq_true rested.2, Bool.true_and]
  rcases rested.1 with pc | pc <;> rw [pc]

lemma reached_put (old : (s.workers tid).Rested s.generation) (new : w.Rested s.generation)
    (x : Int) (pc : CallerPc) : (s.put tid w).reached x pc = s.reached x pc := by
  have passed : ((s.put tid w).workers (s.owner x)).passed s.generation x =
      (s.workers (s.owner x)).passed s.generation x := by
    by_cases here : s.owner x = tid
    · rw [here, put_workers_self, passed_rested old, passed_rested new]
    · rw [put_workers_of_ne here]
  cases pc with
  | wait | asleep => exact passed
  | _ => rfl

lemma Noise.inv (noise : s.Noise t) (inv : s.Inv) : t.Inv := by
  cases noise with
  | same => exact inv
  | caller pc working before after =>
    have still : { s with pc }.Working := { working with }
    have phase : { s with pc }.Phase pc := by
      rcases after with rfl | rfl
      · exact .inl still
      · exact still
    have reached (x : Int) : s.reached x pc = s.reached x s.pc := by
      rcases before with before | before <;> rcases after with rfl | rfl <;> rw [before] <;> rfl
    have busy : s.pc ≠ .idle := by
      rcases before with before | before <;> rw [before] <;> exact nofun
    refine ⟨phase, fun _ => inv.call busy, fun j range here x => ?_, inv.later⟩
    exact (inv.counts j range here x).trans (by rw [← reached]; rfl)
  | worker tid w inside stop old new =>
    have phase := inv.phase
    refine ⟨?_, inv.call, fun j range here x => ?_, inv.later⟩
    · show (s.put tid w).Phase s.pc
      cases pc : s.pc <;> rw [pc] at phase
      case idle | ensure | stop => exact phase.put new
      case join => exact absurd (stop.symm.trans phase.stop) Bool.false_ne_true
      case stopped | start => exact absurd (phase ▸ inside) (Nat.not_lt_zero tid)
      case post => exact ⟨phase.1.put new, phase.2⟩
      case wait =>
        exact phase.imp (fun working => working.put_rested inside old new)
          fun ⟨quiet, posted⟩ => ⟨quiet.put new, posted.put⟩
      case asleep => exact phase.put_rested inside old new
    · exact (inv.counts j range here x).trans (by rw [← reached_put old new]; rfl)

end State

end PocketMoE.Backend.ParallelTeam
