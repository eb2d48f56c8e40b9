import PocketMoE.Backend.ParallelTeamSteps

/-!
# The runs of the team

A thread that is ready stays ready while other threads only wake up and fall asleep, and until all
calls have returned some thread is ready. So all calls return if every thread has its turn again and
again (`parallel_for_exactly_once`).
-/

namespace PocketMoE.Backend.ParallelTeam
open PocketMoE.Lib

namespace State

variable {s t : State}

lemma Noise.measure (noise : s.Noise t) : t.measure = s.measure := by
  cases noise with
  | same => rfl
  | caller pc _ before after =>
    have left : State.left { s with pc } pc = s.left s.pc :=
      (left_waits after).trans (left_waits before).symm
    have ahead : pc.ahead = s.pc.ahead := (ahead_waits after).trans (ahead_waits before).symm
    unfold State.measure
    rw [← left, ← ahead]
  | worker tid w inside stop old new =>
    have sum := sum_put
      (fun i w => w.left s.generation (s.partEnd i - s.partBegin i).toNat) inside w
    rw [left_rested old, left_rested new] at sum
    have left : (s.put tid w).left s.pc = s.left s.pc := by
      cases s.pc with
      | wait | asleep => exact sum
      | join joined =>
        have sum := sum_put (fun _ w => if w.pc = .exited then 0 else 1) inside w
        have awake {w : Worker} (calm : w.Rested s.generation) : w.pc ≠ .exited := by
          rcases calm.1 with pc | pc <;> rw [pc] <;> exact nofun
        rw [if_neg (awake old), if_neg (awake new)] at sum
        exact congrArg (_ + ·) (Nat.add_right_cancel sum)
      | _ => rfl
    unfold State.measure
    rw [← left]
    rfl

lemma Noise.ready (noise : s.Noise t) {actor : Actor} (ready : Ready actor s) :
    Ready actor t := by
  cases noise with
  | same => exact ready
  | caller pc working before after =>
    cases actor with
    | caller =>
      have waiting : s.callerReady s.pc := ready
      rcases before with before | before <;> rw [before] at waiting
      · exact absurd (working.hasWork.symm.trans waiting) (Bool.false_ne_true).symm
      · exact waiting.elim
    | worker tid => exact ready
    | wakeCaller | wakeWorker => exact ready
  | worker tid w inside stop old new =>
    cases actor with
    | caller =>
      have waiting : s.callerReady s.pc := ready
      show (s.put tid w).callerReady s.pc
      cases pc : s.pc <;> rw [pc] at waiting
      case join joined =>
        intro more
        have ended := waiting more
        have other : joined ≠ tid := by
          rintro rfl
          rcases old.1 with calm | calm <;> exact absurd (ended.symm.trans calm) nofun
        rwa [put_workers_of_ne other]
      all_goals exact waiting
    | worker i =>
      by_cases mine : i = tid
      · exact absurd ready (mine ▸ not_ready_rested stop old)
      · refine ⟨ready.1, ?_⟩
        rw [put_workers_of_ne mine]
        exact ready.2
    | wakeCaller | wakeWorker => exact ready

end State

/-! ## Runs -/

namespace State

variable {s : State}

/-- The caller has gone through the script. -/
def Done (s : State) : Prop := s.pc = .idle ∧ s.script = []

lemma Working.ready (working : s.Working) : ∃ tid, Ready (.worker tid) s := by
  obtain ⟨tid, inside, busy⟩ : ∃ tid < s.size, ¬ (s.workers tid).Rested s.generation := by
    by_contra! all
    have count : s.restedCount = s.size := by
      rw [restedCount, ← Finset.card_filter, Finset.card_filter_eq_iff.mpr fun tid member =>
        all tid (Finset.mem_range.mp member), Finset.card_range]
    have unfinished := working.unfinished
    rw [working.finished, count, working.size] at unfinished
    exact Nat.lt_irrefl _ unfinished
  refine ⟨tid, inside, ?_⟩
  unfold Worker.ready
  cases working.part tid inside with
  | pending pc seen =>
    rw [pc]
    exact .inr (Ne.symm seen)
  | running x pc =>
    rw [pc]
    trivial
  | reporting pc =>
    rw [pc]
    trivial
  | rested calm => exact absurd calm busy

lemma Inv.progress (inv : s.Inv) (more : ¬ s.Done) : ∃ actor, actor.Thread ∧ Ready actor s := by
  have phase := inv.phase
  have works (working : s.Working) : ∃ actor, actor.Thread ∧ Ready actor s := by
    obtain ⟨tid, ready⟩ := working.ready
    exact ⟨.worker tid, trivial, ready⟩
  have caller (ready : s.callerReady s.pc) : ∃ actor, actor.Thread ∧ Ready actor s :=
    ⟨.caller, trivial, ready⟩
  cases pc : s.pc <;> rw [pc] at phase caller
  case idle => exact caller fun none => more ⟨pc, none⟩
  case ensure | stop | stopped | start | post => exact caller trivial
  case join joined =>
    by_cases waits : joined < s.size ∧ (s.workers joined).pc ≠ .exited
    · have check := (phase.ending joined waits.1).resolve_right waits.2
      refine ⟨.worker joined, trivial, waits.1, ?_⟩
      rw [Worker.ready, check]
      exact .inl phase.stop
    · exact caller fun inside => not_not.mp fun alive => waits ⟨inside, alive⟩
  case wait =>
    rcases phase with working | ⟨quiet, -⟩
    · exact works working
    · exact caller quiet.hasWork
  case asleep => exact works phase

/-- The number of the last call. -/
def current (s : State) : Nat := s.calls.length - 1

/-- The call has returned. -/
def Returned (s : State) (call : Nat) : Prop :=
  call < s.calls.length ∧ (s.pc = .idle ∨ call + 1 ≠ s.calls.length)

lemma Inv.returned (inv : s.Inv) {call : Nat} (returned : s.Returned call) {first last : Int}
    (here : s.calls[call]? = some (first, last)) (x : Int) :
    s.executed.count (call, x) = if first ≤ x ∧ x < last then 1 else 0 := by
  rw [inv.counts call _ here x]
  refine if_congr (and_congr_right fun _ => and_iff_left fun recent => ?_) rfl rfl
  rw [returned.2.resolve_right fun other => other recent]
  rfl

end State

open State

/-- The ranges of the calls of a script. -/
def ranges : List Command → List (Int × Int)
  | [] => []
  | .setThreads _ :: script => ranges script
  | .parallelFor first last :: script => (first, last) :: ranges script

lemma start_inv (ompNumThreads : Int) (script : List Command) :
    (start ompNumThreads script).Inv where
  phase := ⟨rfl, rfl, rfl, nofun, nofun⟩
  call busy := absurd rfl busy
  counts _ _ here := by cases here
  later _ _ _ := rfl

lemma workerStep_calls (s : State) (tid : Nat) :
    (s.workerStep tid).calls = s.calls ∧ (s.workerStep tid).script = s.script := by
  unfold State.workerStep
  dsimp only
  cases (s.workers tid).pc with
  | check =>
    dsimp only
    split_ifs <;> exact ⟨rfl, rfl⟩
  | run fn i e =>
    cases fn with
    | none => exact ⟨rfl, rfl⟩
    | some call =>
      dsimp only
      split_ifs <;> exact ⟨rfl, rfl⟩
  | report =>
    dsimp only
    split_ifs <;> exact ⟨rfl, rfl⟩
  | asleep | exited => exact ⟨rfl, rfl⟩

lemma callerStep_calls (s : State) :
    s.callerStep.calls ++ ranges s.callerStep.script = s.calls ++ ranges s.script := by
  unfold State.callerStep
  cases s.pc with
  | idle =>
    cases script : s.script with
    | nil =>
      dsimp only
      rw [script]
    | cons command rest =>
      cases command with
      | setThreads n => rfl
      | parallelFor first last =>
        dsimp only
        split_ifs <;> exact List.append_assoc ..
  | join joined =>
    dsimp only
    split_ifs <;> rfl
  | ensure | stop | wait =>
    dsimp only
    split_ifs <;> rfl
  | stopped | start | post | asleep => rfl

lemma step_ranges (actor : Actor) (s : State) :
    (step actor s).calls ++ ranges (step actor s).script = s.calls ++ ranges s.script := by
  cases actor with
  | caller => exact callerStep_calls s
  | worker tid =>
    rw [step]
    split_ifs
    · rw [(workerStep_calls s tid).1, (workerStep_calls s tid).2]
    · rfl
  | wakeCaller =>
    rw [step]
    split_ifs <;> rfl
  | wakeWorker tid =>
    rw [step]
    split_ifs <;> rfl

variable (ompNumThreads : Int) (script : List Command) (schedule : Nat → Actor)

lemma at_inv (n : Nat) : (stateAt step schedule (start ompNumThreads script) n).Inv := by
  refine at_invariant (start_inv ompNumThreads script) (fun actor s inv => ?_) schedule n
  exact (inv.step actor).elim (fun noise => noise.1.inv inv) Gains.inv

lemma at_ranges (n : Nat) :
    (stateAt step schedule (start ompNumThreads script) n).calls ++
      ranges (stateAt step schedule (start ompNumThreads script) n).script = ranges script := by
  induction n with
  | zero => rfl
  | succ n ih => exact (step_ranges _ _).trans ih

lemma State.Noise.logs {s t : State} (noise : s.Noise t) : s.Logs t := by
  cases noise with
  | same | caller | worker => exact .inl rfl

/-- Whatever the schedule, a call that has returned has run its body once on every index of its
range and on no other, and no body is run but that of the call the caller waits for. If all threads
go on, all calls return. -/
theorem parallel_for_exactly_once (ompNumThreads : Int) (script : List Command)
    (schedule : Nat → Actor) :
    let s := stateAt step schedule (start ompNumThreads script)
    (∀ n call first last, (s n).Returned call → (ranges script)[call]? = some (first, last) →
      ∀ x, (s n).executed.count (call, x) = if first ≤ x ∧ x < last then 1 else 0) ∧
    (∀ n, (s n).Logs (s (n + 1))) ∧
    ((∀ actor : Actor, actor.Thread → ∀ n, ∃ m, n ≤ m ∧ schedule m = actor) →
      ∃ n, (s n).Done ∧ (s n).calls = ranges script) := by
  intro s
  refine ⟨fun n call first last returned here x => ?_, fun n => ?_, fun fair => ?_⟩
  · have all := at_ranges ompNumThreads script schedule n
    rw [← all, List.getElem?_append_left returned.1] at here
    exact (at_inv ompNumThreads script schedule n).returned returned here x
  · exact ((at_inv ompNumThreads script schedule n).step (schedule n)).elim
      (fun noise => noise.1.logs) Gains.logs
  · obtain ⟨n, done⟩ : ∃ n, (s n).Done := fair_done_of_ready State.measure
      (start_inv ompNumThreads script)
      (fun actor s inv => (inv.step actor).elim (fun noise => noise.1.inv inv) Gains.inv)
      (fun actor s inv ready => ((inv.step actor).resolve_left fun noise => noise.2 ready).less)
      (fun actor s inv => (inv.step actor).elim
        (fun noise => .inr ⟨noise.1.measure, fun _ ready => noise.1.ready ready⟩)
        fun gains => .inl gains.less)
      (fun s inv more => inv.progress more) fair
    have all := at_ranges ompNumThreads script schedule n
    rw [done.2, ranges, List.append_nil] at all
    exact ⟨n, done, all⟩

/-- The caller and all workers in turn. -/
def inTurn (m : Nat) : Actor :=
  match (Nat.unpair m).1 with
  | 0 => .caller
  | tid + 1 => .worker tid

lemma fair_inTurn (actor : Actor) (thread : actor.Thread) (n : Nat) :
    ∃ m, n ≤ m ∧ inTurn m = actor := by
  cases actor with
  | caller =>
    refine ⟨Nat.pair 0 n, Nat.right_le_pair 0 n, ?_⟩
    rw [inTurn, Nat.unpair_pair]
  | worker tid =>
    refine ⟨Nat.pair (tid + 1) n, Nat.right_le_pair (tid + 1) n, ?_⟩
    rw [inTurn, Nat.unpair_pair]
  | wakeCaller | wakeWorker => exact thread.elim

/-- Two calls return, the second with another number of threads. -/
theorem parallel_for_exactly_once_restart :
    let script := [.parallelFor 0 5, .setThreads 3, .parallelFor (-2) 2]
    ∃ n, (stateAt step inTurn (start 2 script) n).Done ∧
      (stateAt step inTurn (start 2 script) n).calls = [(0, 5), (-2, 2)] :=
  (parallel_for_exactly_once 2 _ inTurn).2.2 fair_inTurn

end PocketMoE.Backend.ParallelTeam
