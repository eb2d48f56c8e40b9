import PocketMoE.Backend.ParallelTeam

/-!
# The steps of the team

Every step of a thread is noise or gets on: it keeps the invariant, takes down what is left, and
adds to the log at most an index of the call that the caller waits for.
-/

namespace PocketMoE.Backend.ParallelTeam
open PocketMoE.Lib

/-! ## Steps of a call -/

namespace State

variable {s t : State} {tid : Nat} {w : Worker}

lemma reached_part (posted : s.Posted)
    (passed : ∀ x, s.partBegin tid ≤ x → x < s.partEnd tid →
      w.passed s.generation x = (s.workers tid).passed s.generation x) (pc : CallerPc) {x : Int}
    (low : s.begin_ ≤ x) (high : x < s.end_) : (s.put tid w).reached x pc = s.reached x pc := by
  have same : ((s.put tid w).workers (s.owner x)).passed s.generation x =
      (s.workers (s.owner x)).passed s.generation x := by
    by_cases here : s.owner x = tid
    · obtain ⟨first, last⟩ := (mem_part posted.nonempty posted.threads low high tid).mpr here
      rw [here, put_workers_self, passed x first last]
    · rw [put_workers_of_ne here]
  cases pc with
  | wait | asleep => exact same
  | _ => rfl

lemma Inv.last_range (inv : s.Inv) (busy : s.pc ≠ .idle) {j : Nat} {range : Int × Int}
    (here : s.calls[j]? = some range) (last : j + 1 = s.calls.length) : range = s.args := by
  have args := (inv.call busy).1
  rw [List.getLast?_eq_getElem?, ← last, Nat.add_sub_cancel, here] at args
  exact Option.some.inj args

lemma Inv.next (inv : s.Inv) (busy : s.pc ≠ .idle) (phase : t.Phase t.pc)
    (args : t.args = s.args) (calls : t.calls = s.calls) (executed : t.executed = s.executed)
    (reached : ∀ x, s.args.1 ≤ x → x < s.args.2 → t.reached x t.pc = s.reached x s.pc) : t.Inv where
  phase := phase
  call _ := by
    rw [args, calls]
    exact inv.call busy
  counts j range here x := by
    rw [calls] at here ⊢
    rw [executed, inv.counts j range here x]
    refine if_congr (and_congr_right fun low => and_congr_right fun high => ?_) rfl rfl
    refine forall_congr' fun last => ?_
    rw [inv.last_range busy here last] at low high
    rw [reached x low high]
  later j x outside := by
    rw [executed]
    exact inv.later j x (calls ▸ outside)

lemma Working.busy (working : s.Working) (inv : s.Inv) : s.pc ≠ .idle := by
  intro idle
  have phase := inv.phase
  rw [idle] at phase
  exact absurd (working.hasWork.symm.trans phase.hasWork) (Bool.false_ne_true).symm

lemma Working.waits (working : s.Working) (inv : s.Inv) : s.pc = .wait ∨ s.pc = .asleep := by
  have phase := inv.phase
  have not (quiet : s.Quiet) : False :=
    Bool.false_ne_true (quiet.hasWork.symm.trans working.hasWork)
  have some_ : s.size ≠ 0 := by
    rw [working.size]
    exact Nat.ne_of_gt working.threads
  cases pc : s.pc <;> rw [pc] at phase
  case wait => exact .inl rfl
  case asleep => exact .inr rfl
  case idle | ensure | stop => exact absurd phase not
  case post => exact absurd phase.1 not
  case join => exact absurd (working.stop.symm.trans phase.stop) Bool.false_ne_true
  case stopped | start => exact absurd phase some_

lemma Working.phase (working : s.Working) (waits : s.pc = .wait ∨ s.pc = .asleep) :
    s.Phase s.pc := by
  rcases waits with pc | pc <;> rw [pc]
  · exact .inl working
  · exact working

lemma Working.put (working : s.Working) (inside : tid < s.size)
    (old : ¬ (s.workers tid).Rested s.generation) (new : ¬ w.Rested s.generation)
    (part : w.Part s.generation s.fn (s.partBegin tid) (s.partEnd tid)) :
    (s.put tid w).Working where
  toPosted := working.toPosted.put
  stop := working.stop
  hasWork := working.hasWork
  fn := working.fn
  part := Part.put working.part <| by
    unfold Part
    rw [put_workers_self]
    exact part
  finished := by
    have sum := sum_put (fun _ w => if w.Rested s.generation then 1 else 0) inside w
    rw [if_neg old, if_neg new] at sum
    exact working.finished.trans (Nat.add_right_cancel sum).symm
  unfinished := working.unfinished

/-- What a worker does while there is work: it sleeps, or it gets on. -/
inductive Works (s : State) (tid : Nat) : State → Prop where
  | sleeps : (s.workers tid).Rested s.generation →
    Works s tid (s.put tid { s.workers tid with pc := .asleep })
  | takes : (s.workers tid).pc = .check → (s.workers tid).seen ≠ s.generation →
    Works s tid (s.put tid ⟨.run s.fn (s.partBegin tid) (s.partEnd tid), s.generation⟩)
  | runs (call : Nat) (x : Int) : s.fn = some call →
    s.workers tid = ⟨.run s.fn x (s.partEnd tid), s.generation⟩ → s.partBegin tid ≤ x →
    x < s.partEnd tid → Works s tid
      { s.put tid ⟨.run s.fn (x + 1) (s.partEnd tid), s.generation⟩ with
        executed := s.executed ++ [(call, x)] }
  | ends (x : Int) : s.workers tid = ⟨.run s.fn x (s.partEnd tid), s.generation⟩ →
    s.partEnd tid ≤ x → Works s tid (s.put tid ⟨.report, s.generation⟩)
  | reports : s.workers tid = ⟨.report, s.generation⟩ → s.finished + 1 ≠ s.nThreads →
    Works s tid { s.put tid ⟨.check, s.generation⟩ with finished := s.finished + 1 }
  | last : s.workers tid = ⟨.report, s.generation⟩ → s.finished + 1 = s.nThreads →
    Works s tid { s.put tid ⟨.check, s.generation⟩ with
      finished := s.finished + 1
      hasWork := false
      pc := if s.pc = .asleep then .wait else s.pc }

lemma Working.step (working : s.Working) (inside : tid < s.size) :
    s.Works tid (s.workerStep tid) := by
  have eta {pc : WorkerPc} (here : (s.workers tid).pc = pc)
      (seen : (s.workers tid).seen = s.generation) : s.workers tid = ⟨pc, s.generation⟩ := by
    rw [← here, ← seen]
  unfold workerStep
  cases working.part tid inside with
  | pending pc seen =>
    simp only [pc, working.stop, Bool.false_eq_true, if_false, if_pos (Ne.symm seen)]
    exact .takes pc seen
  | running x pc seen low high =>
    have fn := working.fn
    have here := eta pc seen
    rw [fn] at pc
    simp only [pc, seen]
    split_ifs with less
    · have runs := @Works.runs _ tid (s.calls.length - 1) x fn here low less
      rwa [fn] at runs
    · exact .ends x here (Int.not_lt.mp less)
  | reporting pc seen =>
    simp only [pc, seen]
    show s.Works tid (if s.finished + 1 = s.nThreads then _ else _)
    by_cases all : s.finished + 1 = s.nThreads
    · rw [if_pos all]
      exact .last (eta pc seen) all
    · rw [if_neg all]
      exact .reports (eta pc seen) all
  | rested calm =>
    have sleeps := Works.sleeps (s := s) calm
    rcases calm with ⟨pc | pc, seen⟩
    · simpa only [pc, working.stop, seen, Bool.false_eq_true, if_false, ne_eq, not_true_eq_false]
        using sleeps
    · have same : ({ s.workers tid with pc := .asleep } : Worker) = s.workers tid := by rw [← pc]
      rw [same, put_self] at sleeps
      simpa only [pc] using sleeps

end State

/-! ## What is left -/

/-- The steps of a call that are ahead of the caller. -/
def CallerPc.ahead : CallerPc → Nat
  | .idle => 0
  | .wait | .asleep => 1
  | .post => 2
  | .start => 3
  | .stopped => 4
  | .join _ => 5
  | .stop => 6
  | .ensure => 7

/-- What a worker has left of a generation in which its part has this length. -/
def Worker.left (w : Worker) (generation length : Nat) : Nat :=
  if w.seen = generation then
    match w.pc with
    | .run _ i e => (e - i).toNat + 2
    | .report => 1
    | _ => 0
  else length + 3

namespace State

/-- What the workers have left, until all have finished or all have ended. -/
def left (s : State) : CallerPc → Nat
  | .wait | .asleep => ∑ tid ∈ Finset.range s.size,
      (s.workers tid).left s.generation (s.partEnd tid - s.partBegin tid).toNat
  | .join joined => (s.size - joined) +
      ∑ tid ∈ Finset.range s.size, if (s.workers tid).pc = .exited then 0 else 1
  | _ => 0

/-- What is left of the script, of a call and of the work. -/
def measure (s : State) : ℕ ×ₗ ℕ ×ₗ ℕ :=
  toLex (s.script.length, toLex (s.pc.ahead, s.left s.pc))

variable {s t : State} {tid : Nat} {w : Worker}

lemma measure_lt_script (less : t.script.length < s.script.length) : t.measure < s.measure :=
  Prod.Lex.toLex_lt_toLex.mpr (.inl less)

lemma measure_lt_ahead (script : t.script = s.script) (less : t.pc.ahead < s.pc.ahead) :
    t.measure < s.measure :=
  Prod.Lex.toLex_lt_toLex.mpr
    (.inr ⟨congrArg List.length script, Prod.Lex.toLex_lt_toLex.mpr (.inl less)⟩)

lemma measure_lt_left (script : t.script = s.script) (ahead : t.pc.ahead = s.pc.ahead)
    (less : t.left t.pc < s.left s.pc) : t.measure < s.measure :=
  Prod.Lex.toLex_lt_toLex.mpr
    (.inr ⟨congrArg List.length script, Prod.Lex.toLex_lt_toLex.mpr (.inr ⟨ahead, less⟩)⟩)

/-- The indices that a step adds are those of the last call, which the caller waits for. -/
def Logs (s t : State) : Prop :=
  t.executed = s.executed ∨ (s.pc = .wait ∨ s.pc = .asleep) ∧
    ∃ x, t.executed = s.executed ++ [(s.calls.length - 1, x)]

/-- A step that gets on. -/
structure Gains (s t : State) : Prop where
  inv : t.Inv
  less : t.measure < s.measure
  logs : s.Logs t

lemma left_rested {w : Worker} {generation length : Nat} (rested : w.Rested generation) :
    w.left generation length = 0 := by
  rw [Worker.left, if_pos rested.2]
  rcases rested.1 with pc | pc <;> rw [pc]

lemma left_put (inside : tid < s.size) (waits : s.pc = .wait ∨ s.pc = .asleep)
    (less : w.left s.generation (s.partEnd tid - s.partBegin tid).toNat <
      (s.workers tid).left s.generation (s.partEnd tid - s.partBegin tid).toNat) :
    (s.put tid w).left s.pc < s.left s.pc := by
  have sum := sum_put
    (fun i w => w.left s.generation (s.partEnd i - s.partBegin i).toNat) inside w
  have both : (∑ i ∈ Finset.range s.size,
      ((s.put tid w).workers i).left s.generation (s.partEnd i - s.partBegin i).toNat) <
    ∑ i ∈ Finset.range s.size,
      (s.workers i).left s.generation (s.partEnd i - s.partBegin i).toNat := by omega
  rcases waits with pc | pc <;> rw [pc] <;> exact both

lemma Working.gains (working : s.Working) (inv : s.Inv) (inside : tid < s.size)
    (old : ¬ (s.workers tid).Rested s.generation) (new : ¬ w.Rested s.generation)
    (part : w.Part s.generation s.fn (s.partBegin tid) (s.partEnd tid))
    (passed : ∀ x, s.partBegin tid ≤ x → x < s.partEnd tid →
      w.passed s.generation x = (s.workers tid).passed s.generation x)
    (less : w.left s.generation (s.partEnd tid - s.partBegin tid).toNat <
      (s.workers tid).left s.generation (s.partEnd tid - s.partBegin tid).toNat) :
    s.Gains (s.put tid w) where
  inv := by
    have still := working.put inside old new part
    refine inv.next (working.busy inv) (still.phase (working.waits inv)) rfl rfl rfl ?_
    intro x low high
    rw [← working.range] at low high
    exact reached_part working.toPosted passed s.pc low high
  less := measure_lt_left rfl rfl (left_put inside (working.waits inv) less)
  logs := .inl rfl

end State

namespace State

variable {s t : State} {tid : Nat}

lemma not_rested_run {fn : Option Nat} {i e : Int} {generation : Nat} :
    ¬ (Worker.mk (.run fn i e) generation).Rested generation := fun calm => by
  rcases calm.1 with pc | pc <;> cases pc

lemma not_rested_report {generation : Nat} :
    ¬ (Worker.mk .report generation).Rested generation := fun calm => by
  rcases calm.1 with pc | pc <;> cases pc

lemma passed_run {fn : Option Nat} {i e x : Int} {generation : Nat} :
    (Worker.mk (.run fn i e) generation).passed generation x = decide (x < i) := by
  rw [Worker.passed, decide_eq_true rfl, Bool.true_and]

lemma left_run {fn : Option Nat} {i e : Int} {generation length : Nat} :
    (Worker.mk (.run fn i e) generation).left generation length = (e - i).toNat + 2 :=
  if_pos rfl

lemma passed_report {x : Int} {generation : Nat} :
    (Worker.mk .report generation).passed generation x = true := by
  rw [Worker.passed, decide_eq_true rfl, Bool.true_and]

lemma rested_check {generation : Nat} : (Worker.mk .check generation).Rested generation :=
  ⟨.inl rfl, rfl⟩

lemma Working.runs (working : s.Working) (inv : s.Inv) (inside : tid < s.size) {call : Nat}
    {x : Int} (fn : s.fn = some call)
    (here : s.workers tid = ⟨.run s.fn x (s.partEnd tid), s.generation⟩)
    (low : s.partBegin tid ≤ x) (high : x < s.partEnd tid) :
    s.Gains { s.put tid ⟨.run s.fn (x + 1) (s.partEnd tid), s.generation⟩ with
      executed := s.executed ++ [(call, x)] } := by
  have busy := working.busy inv
  have waits := working.waits inv
  have part : (Worker.mk (.run s.fn (x + 1) (s.partEnd tid)) s.generation).Part s.generation s.fn
      (s.partBegin tid) (s.partEnd tid) := .running (x + 1) rfl rfl (by omega) (by omega)
  have still := working.put inside (here ▸ not_rested_run) not_rested_run part
  obtain rfl : s.calls.length - 1 = call := Option.some.inj (working.fn.symm.trans fn)
  have args := (inv.call busy).1
  have nonempty : s.calls ≠ [] := by
    rintro none
    rw [none] at args
    cases args
  have length := List.length_pos_iff.mpr nonempty
  have first : s.begin_ ≤ x := le_trans (partBegin_ge working.nonempty working.threads tid) low
  have last : x < s.end_ := lt_of_lt_of_le high (min_le_left ..)
  have owner : s.owner x = tid :=
    (mem_part working.nonempty working.threads first last tid).mp ⟨low, high⟩
  have before : s.reached x s.pc = false := by
    have passed : (s.workers (s.owner x)).passed s.generation x = false := by
      rw [owner, here, passed_run, decide_eq_false (lt_irrefl x)]
    rcases waits with pc | pc <;> rw [pc] <;> exact passed
  have after (y : Int) (low : s.begin_ ≤ y) (high : y < s.end_) :
      (s.put tid ⟨.run s.fn (x + 1) (s.partEnd tid), s.generation⟩).reached y s.pc =
        (s.reached y s.pc || decide (y = x)) := by
    have passed : ((s.put tid ⟨.run s.fn (x + 1) (s.partEnd tid), s.generation⟩).workers
        (s.owner y)).passed s.generation y =
          ((s.workers (s.owner y)).passed s.generation y || decide (y = x)) := by
      by_cases mine : s.owner y = tid
      · rw [mine, put_workers_self, here, passed_run, passed_run, ← Bool.decide_or]
        exact decide_eq_decide.mpr (by omega)
      · have other : y ≠ x := fun same => mine (same ▸ owner)
        rw [put_workers_of_ne mine, decide_eq_false other, Bool.or_false]
    rcases waits with pc | pc <;> rw [pc] <;> exact passed
  refine ⟨⟨?_, fun _ => inv.call busy, fun j range there y => ?_, fun j y outside => ?_⟩, ?_, ?_⟩
  · exact Working.phase { still with } waits
  · have old := inv.counts j range there y
    have added : (s.executed ++ [(s.calls.length - 1, x)]).count (j, y) =
        s.executed.count (j, y) + if s.calls.length - 1 = j ∧ x = y then 1 else 0 := by
      rw [List.count_append, List.count_singleton]
      simp only [beq_iff_eq, Prod.mk.injEq]
    refine added.trans ?_
    rw [old]
    show _ = if range.1 ≤ y ∧ y < range.2 ∧ (j + 1 = s.calls.length →
      (s.put tid ⟨.run s.fn (x + 1) (s.partEnd tid), s.generation⟩).reached y s.pc) then 1 else 0
    by_cases recent : j + 1 = s.calls.length
    · obtain rfl : (s.begin_, s.end_) = range :=
        working.range.trans (inv.last_range busy there recent).symm
      by_cases within : s.begin_ ≤ y ∧ y < s.end_
      · rw [after y within.1 within.2]
        by_cases same : y = x
        · rw [same, before]
          simp [recent, first, last, show s.calls.length - 1 = j by omega]
        · simp [same, Ne.symm same, within]
      · have other : x ≠ y := fun same => within (same ▸ ⟨first, last⟩)
        rw [if_neg fun h => within ⟨h.1, h.2.1⟩, if_neg fun h => other h.2,
          if_neg fun h => within ⟨h.1, h.2.1⟩]
    · have other : s.calls.length - 1 ≠ j := by omega
      simp [recent, other]
  · have other : (s.calls.length - 1, x) ≠ (j, y) := by
      rintro ⟨⟩
      have : s.calls.length ≤ s.calls.length - 1 := outside
      omega
    show (s.executed ++ [(s.calls.length - 1, x)]).count (j, y) = 0
    have none := inv.later j y outside
    rw [List.count_append, none, List.count_singleton, if_neg (by simpa using other)]
  · refine measure_lt_left rfl rfl (left_put inside waits ?_)
    rw [here, left_run, left_run]
    omega
  · exact .inr ⟨waits, x, rfl⟩

end State

namespace State

variable {s t : State} {tid : Nat}

lemma restedCount_report (inside : tid < s.size) (here : s.workers tid = ⟨.report, s.generation⟩) :
    (s.put tid ⟨.check, s.generation⟩).restedCount = s.restedCount + 1 := by
  have sum := sum_put (fun _ w => if w.Rested s.generation then 1 else 0) inside
    ⟨.check, s.generation⟩
  rw [here, if_neg not_rested_report, if_pos rested_check] at sum
  exact sum

lemma rested_of_count (all : s.restedCount = s.size) :
    ∀ tid < s.size, (s.workers tid).Rested s.generation := by
  rw [restedCount, ← Finset.card_filter] at all
  have every := (Finset.card_filter_eq_iff (s := Finset.range s.size)).mp
    (all.trans (Finset.card_range s.size).symm)
  exact fun tid inside => every tid (Finset.mem_range.mpr inside)

lemma reached_report (posted : s.Posted) (here : s.workers tid = ⟨.report, s.generation⟩)
    (pc : CallerPc) {x : Int} (low : s.begin_ ≤ x) (high : x < s.end_) :
    (s.put tid ⟨.check, s.generation⟩).reached x pc = s.reached x pc :=
  reached_part posted
    (fun x _ _ => by rw [here, passed_report, passed_rested rested_check]) pc low high

lemma left_report (here : s.workers tid = ⟨.report, s.generation⟩) (length : Nat) :
    (Worker.mk .check s.generation).left s.generation length <
      (s.workers tid).left s.generation length := by
  rw [left_rested rested_check, here]
  exact Nat.lt_of_lt_of_eq Nat.one_pos (if_pos rfl).symm

lemma Working.reports (working : s.Working) (inv : s.Inv) (inside : tid < s.size)
    (here : s.workers tid = ⟨.report, s.generation⟩) (more : s.finished + 1 ≠ s.nThreads) :
    s.Gains { s.put tid ⟨.check, s.generation⟩ with finished := s.finished + 1 } := by
  have waits := working.waits inv
  have still : State.Working
      { s.put tid ⟨.check, s.generation⟩ with finished := s.finished + 1 } :=
    { working with
      part := Part.put working.part <| by
        unfold Part
        rw [put_workers_self]
        exact .rested rested_check
      finished := by
        rw [working.finished]
        exact (restedCount_report inside here).symm
      unfinished := Nat.lt_of_le_of_ne working.unfinished more }
  refine ⟨inv.next (working.busy inv) (still.phase waits) rfl rfl rfl fun x low high => ?_,
    measure_lt_left rfl rfl (left_put inside waits (left_report here _)), .inl rfl⟩
  rw [← working.range] at low high
  exact reached_report working.toPosted here s.pc low high

lemma reached_waits {pc : CallerPc} (waits : pc = .wait ∨ pc = .asleep) {x : Int} :
    s.reached x pc = s.reached x .wait := by
  rcases waits with rfl | rfl
  · rfl
  · rfl

lemma left_waits {pc : CallerPc} (waits : pc = .wait ∨ pc = .asleep) :
    s.left pc = s.left .wait := by
  rcases waits with rfl | rfl
  · rfl
  · rfl

lemma ahead_waits {pc : CallerPc} (waits : pc = .wait ∨ pc = .asleep) :
    pc.ahead = CallerPc.wait.ahead := by
  rcases waits with rfl | rfl
  · rfl
  · rfl

lemma Working.last (working : s.Working) (inv : s.Inv) (inside : tid < s.size)
    (here : s.workers tid = ⟨.report, s.generation⟩) (all : s.finished + 1 = s.nThreads) :
    s.Gains { s.put tid ⟨.check, s.generation⟩ with
      finished := s.finished + 1
      hasWork := false
      pc := if s.pc = .asleep then .wait else s.pc } := by
  have waits := working.waits inv
  have woken : (if s.pc = .asleep then .wait else s.pc) = CallerPc.wait := by
    rcases waits with pc | pc <;> (rw [pc]; rfl)
  rw [woken]
  have count : (s.put tid ⟨.check, s.generation⟩).restedCount = s.size := by
    rw [restedCount_report inside here, ← working.finished, all, working.size]
  have rested := rested_of_count (s := s.put tid ⟨.check, s.generation⟩) count
  have quiet : State.Quiet { s.put tid ⟨.check, s.generation⟩ with
      finished := s.finished + 1
      hasWork := false
      pc := .wait } :=
    { stop := working.stop
      hasWork := rfl
      size := working.size.trans (if_pos working.started).symm
      threads := fun _ => working.threads
      rested := rested }
  have posted : State.Posted { s.put tid ⟨.check, s.generation⟩ with
      finished := s.finished + 1
      hasWork := false
      pc := .wait } := { working.toPosted with }
  have less := left_put inside waits (left_report here _)
  rw [left_waits waits, left_waits waits] at less
  refine ⟨inv.next (working.busy inv) (.inr ⟨quiet, posted⟩) rfl rfl rfl fun x low high => ?_,
    measure_lt_left rfl (ahead_waits waits).symm ((left_waits waits).symm ▸ less), .inl rfl⟩
  rw [← working.range] at low high
  rw [reached_waits waits]
  exact reached_report working.toPosted here .wait low high

lemma Working.gains_or_noise (working : s.Working) (inv : s.Inv) (inside : tid < s.size) :
    s.Noise (s.workerStep tid) ∧ ¬ Ready (.worker tid) s ∨ s.Gains (s.workerStep tid) := by
  have step := working.step inside
  generalize s.workerStep tid = t at step
  cases step with
  | sleeps calm =>
    exact .inl ⟨.worker tid _ inside working.stop calm ⟨.inr rfl, calm.2⟩,
      not_ready_rested working.stop calm⟩
  | takes pc seen =>
    refine .inr (working.gains inv inside (fun calm => seen calm.2) not_rested_run
      (.running (s.partBegin tid) rfl rfl (le_refl _) (le_max_left ..)) (fun x low _ => ?_) ?_)
    · have unseen : (s.workers tid).passed s.generation x = false := by
        rw [Worker.passed, decide_eq_false seen, Bool.false_and]
      rw [unseen, passed_run, decide_eq_false (Int.not_lt.mpr low)]
    · rw [left_run, Worker.left, if_neg seen]
      omega
  | runs call x fn here low high => exact .inr (working.runs inv inside fn here low high)
  | ends x here above =>
    refine .inr (working.gains inv inside (here ▸ not_rested_run) not_rested_report
      (.reporting rfl rfl) (fun y _ high => ?_) ?_)
    · rw [here, passed_run, passed_report, decide_eq_true (lt_of_lt_of_le high above)]
    · have one : (Worker.mk .report s.generation).left s.generation
          (s.partEnd tid - s.partBegin tid).toNat = 1 := if_pos rfl
      rw [here, left_run, one]
      omega
  | reports here more => exact .inr (working.reports inv inside here more)
  | last here all => exact .inr (working.last inv inside here all)

end State

/-! ## All steps -/

namespace State

variable {s t : State} {tid : Nat}

lemma Quiet.noise (quiet : s.Quiet) (inside : tid < s.size) :
    s.Noise (s.workerStep tid) ∧ ¬ Ready (.worker tid) s := by
  have calm := quiet.rested tid inside
  refine ⟨?_, not_ready_rested quiet.stop calm⟩
  have sleeps := Noise.worker tid { s.workers tid with pc := .asleep } inside quiet.stop calm
    ⟨.inr rfl, calm.2⟩
  unfold workerStep
  rcases calm with ⟨pc | pc, seen⟩
  · simpa only [pc, quiet.stop, seen, Bool.false_eq_true, if_false, ne_eq, not_true_eq_false]
      using sleeps
  · simp only [pc]
    exact .same

lemma Stopping.gains {joined : Nat} (stopping : s.Stopping joined) (inv : s.Inv)
    (here : s.pc = .join joined) (inside : tid < s.size) :
    s.Noise (s.workerStep tid) ∧ ¬ Ready (.worker tid) s ∨ s.Gains (s.workerStep tid) := by
  have busy : s.pc ≠ .idle := by
    rw [here]
    exact nofun
  unfold workerStep
  rcases stopping.ending tid inside with pc | pc
  · simp only [pc, stopping.stop, if_true]
    have ended : (s.put tid { s.workers tid with pc := .exited }).Stopping joined :=
      { stop := stopping.stop
        ending := fun i low => by
          by_cases mine : i = tid
          · exact .inr (by rw [mine, put_workers_self])
          · rw [put_workers_of_ne mine]
            exact stopping.ending i low
        joined := fun i low first => by
          by_cases mine : i = tid
          · rw [mine, put_workers_self]
          · rw [put_workers_of_ne mine]
            exact stopping.joined i low first }
    refine .inr ⟨inv.next busy ?_ rfl rfl rfl fun x _ _ => ?_, measure_lt_left rfl rfl ?_, .inl rfl⟩
    · show (s.put tid _).Phase s.pc
      rw [here]
      exact ended
    · show (s.put tid _).reached x s.pc = s.reached x s.pc
      rw [here]
      rfl
    · show (s.put tid _).left s.pc < s.left s.pc
      have sum := sum_put (fun _ w => if w.pc = .exited then 0 else 1) inside
        { s.workers tid with pc := .exited }
      have alive : (s.workers tid).pc ≠ .exited := by
        rw [pc]
        exact nofun
      rw [if_neg alive, if_pos rfl] at sum
      rw [here]
      exact Nat.add_lt_add_left (Nat.lt_of_succ_le (Nat.le_of_eq sum)) _
  · simp only [pc]
    refine .inl ⟨.same, fun ready => ?_⟩
    have alive := ready.2
    rwa [Worker.ready, pc] at alive

lemma Inv.worker (inv : s.Inv) (inside : tid < s.size) :
    s.Noise (s.workerStep tid) ∧ ¬ Ready (.worker tid) s ∨ s.Gains (s.workerStep tid) := by
  have phase := inv.phase
  cases pc : s.pc <;> rw [pc] at phase
  case idle | ensure | stop => exact .inl (Quiet.noise phase inside)
  case join => exact phase.gains inv pc inside
  case stopped | start => exact absurd (phase ▸ inside) (Nat.not_lt_zero tid)
  case post => exact .inl (phase.1.noise inside)
  case wait =>
    rcases phase with working | ⟨quiet, -⟩
    · exact working.gains_or_noise inv inside
    · exact .inl (quiet.noise inside)
  case asleep => exact phase.gains_or_noise inv inside

lemma Inv.sleeps (inv : s.Inv) (inside : tid < s.size) (pc : (s.workers tid).pc = .asleep) :
    s.stop = false ∧ (s.workers tid).Rested s.generation := by
  have phase := inv.phase
  have works (working : s.Working) : s.stop = false ∧ (s.workers tid).Rested s.generation := by
    refine ⟨working.stop, ?_⟩
    cases working.part tid inside with
    | pending other | running _ other | reporting other => exact absurd (pc.symm.trans other) nofun
    | rested calm => exact calm
  cases at_ : s.pc <;> rw [at_] at phase
  case idle | ensure | stop => exact ⟨phase.stop, phase.rested tid inside⟩
  case join =>
    rcases phase.ending tid inside with other | other <;> exact absurd (pc.symm.trans other) nofun
  case stopped | start => exact absurd (phase ▸ inside) (Nat.not_lt_zero tid)
  case post => exact ⟨phase.1.stop, phase.1.rested tid inside⟩
  case wait =>
    rcases phase with working | ⟨quiet, -⟩
    · exact works working
    · exact ⟨quiet.stop, quiet.rested tid inside⟩
  case asleep => exact works phase

lemma Inv.wakeWorker (inv : s.Inv) (inside : tid < s.size) :
    s.Noise (s.put tid (s.workers tid).wake) := by
  unfold Worker.wake
  split_ifs with pc
  · obtain ⟨stop, calm⟩ := inv.sleeps inside pc
    exact .worker tid _ inside stop calm ⟨.inl rfl, calm.2⟩
  · rw [put_self]
    exact .same

lemma Quiet.wake (quiet : s.Quiet) (inside : tid < s.size) :
    (s.workers tid).wake = ⟨.check, s.generation⟩ := by
  obtain ⟨pc | pc, seen⟩ := quiet.rested tid inside
  · have awake : (s.workers tid).pc ≠ .asleep := by
      rw [pc]
      exact nofun
    rw [Worker.wake, if_neg awake, ← pc, ← seen]
  · rw [Worker.wake, if_pos pc, ← seen]

end State

namespace State

variable {s : State}

lemma threads_pos : 0 < s.threads := by
  unfold threads
  split_ifs with some_
  · omega
  · exact Nat.one_pos

lemma Inv.gains (inv : s.Inv) {t : State} (before after : CallerPc) (here : s.pc = before)
    (there : t.pc = after) (busy : before ≠ .idle) (phase : t.Phase after) (args : t.args = s.args)
    (calls : t.calls = s.calls) (executed : t.executed = s.executed) (script : t.script = s.script)
    (reached : ∀ x, s.args.1 ≤ x → x < s.args.2 → t.reached x after = s.reached x before)
    (less : after.ahead < before.ahead) : s.Gains t := by
  subst here there
  exact ⟨inv.next busy phase args calls executed reached, measure_lt_ahead script less,
    .inl executed⟩

lemma Inv.begins (inv : s.Inv) (idle : s.pc = .idle) {first last : Int} {script : List Command}
    (next : s.script = .parallelFor first last :: script) : s.Gains s.callerStep := by
  have quiet := inv.phase
  rw [idle] at quiet
  have counts (pc : CallerPc) (reached : last ≤ first ∨ ∀ x, s.reached x pc = false) (j : Nat)
      (range : Int × Int) (here : (s.calls ++ [(first, last)])[j]? = some range) (x : Int) :
      s.executed.count (j, x) = if range.1 ≤ x ∧ x < range.2 ∧
        (j + 1 = (s.calls ++ [(first, last)]).length → s.reached x pc) then 1 else 0 := by
    rw [List.length_append, List.length_singleton]
    rcases Nat.lt_trichotomy j s.calls.length with old | new | outside
    · rw [List.getElem?_append_left old] at here
      rw [inv.counts j range here x, idle]
      have earlier : j + 1 ≠ s.calls.length + 1 := by omega
      refine if_congr (and_congr_right fun _ => and_congr_right fun _ => ?_) rfl rfl
      exact iff_of_true (fun _ => rfl) fun now => absurd now earlier
    · rw [new, List.getElem?_concat_length] at here
      obtain rfl := Option.some.inj here
      rw [inv.later j x (Nat.le_of_eq new.symm), if_neg]
      rintro ⟨low, high, now⟩
      rcases reached with empty | not
      · exact absurd (lt_of_le_of_lt low high) (Int.not_lt.mpr empty)
      · exact Bool.false_ne_true ((not x).symm.trans (now (by rw [new])))
    · rw [List.getElem?_eq_none (by rw [List.length_append, List.length_singleton]; omega)] at here
      cases here
  have later (j : Nat) (x : Int) (outside : (s.calls ++ [(first, last)]).length ≤ j) :
      s.executed.count (j, x) = 0 := by
    rw [List.length_append, List.length_singleton] at outside
    exact inv.later j x (by omega)
  have shorter : script.length < s.script.length := by
    rw [next]
    exact Nat.lt_succ_self _
  unfold callerStep
  rw [idle, next]
  dsimp only
  split_ifs with empty
  · refine ⟨⟨?_, fun busy => absurd rfl busy, counts .idle (.inl empty), later⟩,
      measure_lt_script shorter, .inl rfl⟩
    exact { (show s.Quiet from quiet) with }
  · have still : State.Quiet { s with
        script
        calls := s.calls ++ [(first, last)]
        pc := .ensure
        args := (first, last) } := { (show s.Quiet from quiet) with }
    refine ⟨⟨still, fun _ => ?_, counts .ensure (.inr fun _ => rfl), later⟩,
      measure_lt_script shorter, .inl rfl⟩
    exact ⟨List.getLast?_concat .., Int.not_le.mp empty⟩

lemma Inv.posts (inv : s.Inv) (here : s.pc = .post) : s.Gains s.callerStep := by
  obtain ⟨quiet, started⟩ : s.Quiet ∧ s.started = true := by
    have phase := inv.phase
    rwa [here] at phase
  have busy : s.pc ≠ .idle := by
    rw [here]
    exact nofun
  have unseen (tid : Nat) (inside : tid < s.size) :
      (s.workers tid).wake = ⟨.check, s.generation⟩ := quiet.wake inside
  have size : s.size = s.nThreads := quiet.size.trans (if_pos started)
  have count : ∑ tid ∈ Finset.range s.size,
      (if (s.workers tid).wake.Rested (s.generation + 1) then 1 else 0) = 0 := by
    refine Finset.sum_eq_zero fun tid member => if_neg fun calm => ?_
    rw [unseen tid (Finset.mem_range.mp member)] at calm
    exact absurd calm.2 (Nat.ne_of_lt (Nat.lt_succ_self s.generation))
  have working : State.Working s.callerStep := by
    unfold callerStep
    rw [here]
    exact
      { started, size
        threads := quiet.threads started
        range := rfl
        nonempty := (inv.call busy).2
        stop := quiet.stop
        hasWork := rfl
        fn := rfl
        part := fun tid inside => by
          have waiting := unseen tid inside
          refine .pending (congrArg Worker.pc waiting) ?_
          rw [show _ = s.generation from congrArg Worker.seen waiting]
          exact Nat.ne_of_lt (Nat.lt_succ_self s.generation)
        finished := count.symm
        unfinished := quiet.threads started }
  have posted := working.toPosted
  have after (x : Int) (low : s.args.1 ≤ x) (high : x < s.args.2) :
      s.callerStep.reached x .wait = false := by
    rw [callerStep, here] at posted ⊢
    have inside := owner_lt posted.nonempty posted.threads low high
    have waiting := unseen _ (lt_of_lt_of_eq inside size.symm)
    show (s.workers _).wake.passed (s.generation + 1) x = false
    rw [waiting, Worker.passed, decide_eq_false (Nat.ne_of_lt (Nat.lt_succ_self _)), Bool.false_and]
  have pc : s.callerStep.pc = .wait := by rw [callerStep, here]
  refine inv.gains .post .wait here pc nofun (.inl working) ?_ ?_ ?_ ?_ after (by decide)
  · rw [callerStep, here]
  · rw [callerStep, here]
  · rw [callerStep, here]
  · rw [callerStep, here]

end State

namespace State

variable {s t : State}

lemma Inv.caller (inv : s.Inv) :
    s.Noise s.callerStep ∧ ¬ s.callerReady s.pc ∨ s.Gains s.callerStep := by
  have phase := inv.phase
  cases here : s.pc <;> rw [here] at phase
  case idle =>
    cases next : s.script with
    | nil =>
      have same : s.callerStep = s := by rw [callerStep, here, next]
      exact .inl ⟨same.symm ▸ .same, fun some_ => some_ next⟩
    | cons command script =>
      cases command with
      | parallelFor first last => exact .inr (inv.begins here next)
      | setThreads n =>
        have shorter : script.length < s.script.length := by
          rw [next]
          exact Nat.lt_succ_self _
        right
        unfold callerStep
        rw [here, next]
        have counts := inv.counts
        rw [here] at counts
        refine ⟨⟨?_, fun other => absurd rfl other, counts, inv.later⟩, measure_lt_script shorter,
          .inl rfl⟩
        exact { (show s.Quiet from phase) with }
  case ensure =>
    right
    unfold callerStep
    rw [here]
    dsimp only
    split_ifs with same
    · refine inv.gains .ensure .post here rfl nofun ?_ rfl rfl rfl rfl (fun _ _ _ => rfl)
        (by decide)
      exact ⟨{ (show s.Quiet from phase) with }, same.1⟩
    · refine inv.gains .ensure .stop here rfl nofun ?_ rfl rfl rfl rfl (fun _ _ _ => rfl)
        (by decide)
      exact { (show s.Quiet from phase) with }
  case stop =>
    have quiet : s.Quiet := phase
    right
    unfold callerStep
    rw [here]
    dsimp only
    split_ifs with started
    · refine inv.gains .stop (.join 0) here rfl nofun ?_ rfl rfl rfl rfl (fun _ _ _ => rfl)
        (by decide)
      exact
        { stop := rfl
          ending := fun tid inside => .inl (congrArg Worker.pc (quiet.wake inside))
          joined := nofun }
    · refine inv.gains .stop .start here rfl nofun ?_ rfl rfl rfl rfl (fun _ _ _ => rfl)
        (by decide)
      exact quiet.size.trans (if_neg started)
  case join joined =>
    unfold callerStep
    rw [here]
    dsimp only
    split_ifs with more ended
    · have busy : s.pc ≠ .idle := here ▸ nofun
      refine .inr ⟨inv.next busy ?_ rfl rfl rfl (fun x _ _ => by rw [here]; rfl),
        measure_lt_left rfl (by rw [here]; rfl) ?_, .inl rfl⟩
      · exact
          { stop := phase.stop
            ending := phase.ending
            joined := fun tid inside first => by
              rcases Nat.lt_succ_iff_lt_or_eq.mp first with earlier | rfl
              · exact phase.joined tid inside earlier
              · exact ended }
      · have fewer : s.size - (joined + 1) < s.size - joined := by omega
        rw [here]
        exact Nat.add_lt_add_right fewer _
    · exact .inl ⟨.same, fun ready => ended (ready more)⟩
    · exact .inr (inv.gains (.join joined) .stopped here rfl nofun rfl rfl rfl rfl rfl
        (fun _ _ _ => rfl) (Nat.lt_succ_self 4))
  case stopped =>
    right
    unfold callerStep
    rw [here]
    exact inv.gains .stopped .start here rfl nofun phase rfl rfl rfl rfl (fun _ _ _ => rfl)
      (by decide)
  case start =>
    right
    unfold callerStep
    rw [here]
    refine inv.gains .start .post here rfl nofun ?_ rfl rfl rfl rfl (fun _ _ _ => rfl) (by decide)
    exact ⟨⟨rfl, rfl, rfl, fun _ => threads_pos, fun _ _ => rested_check⟩, rfl⟩
  case post => exact .inr (inv.posts here)
  case wait =>
    unfold callerStep
    rw [here]
    dsimp only
    split_ifs with work
    · rcases phase with working | ⟨quiet, -⟩
      · refine .inl ⟨.caller .asleep working (.inl here) (.inr rfl), fun done => ?_⟩
        exact Bool.false_ne_true (done.symm.trans work)
      · exact absurd (quiet.hasWork.symm.trans work) Bool.false_ne_true
    · rcases phase with working | ⟨quiet, posted⟩
      · exact absurd working.hasWork work
      · refine .inr (inv.gains .wait .idle here rfl nofun ?_ rfl rfl rfl rfl
          (fun x low high => ?_) (by decide))
        · exact { quiet with }
        · rw [← posted.range] at low high
          have inside := owner_lt posted.nonempty posted.threads low high
          exact (passed_rested (quiet.rested _ (lt_of_lt_of_eq inside posted.size.symm)) x).symm
  case asleep =>
    have same : s.callerStep = s := by rw [callerStep, here]
    exact .inl ⟨same.symm ▸ .same, id⟩

end State

open State

lemma State.Inv.step {s : State} (inv : s.Inv) (actor : Actor) :
    s.Noise (step actor s) ∧ ¬ Ready actor s ∨ s.Gains (step actor s) := by
  cases actor with
  | caller => exact inv.caller
  | worker tid =>
    rw [ParallelTeam.step]
    split_ifs with inside
    · exact inv.worker inside
    · exact .inl ⟨.same, fun ready => inside ready.1⟩
  | wakeCaller =>
    rw [ParallelTeam.step]
    split_ifs with asleep
    · have phase := inv.phase
      rw [asleep] at phase
      exact .inl ⟨.caller .wait phase (.inr asleep) (.inl rfl), id⟩
    · exact .inl ⟨.same, id⟩
  | wakeWorker tid =>
    rw [ParallelTeam.step]
    split_ifs with inside
    · exact .inl ⟨inv.wakeWorker inside, id⟩
    · exact .inl ⟨.same, id⟩

end PocketMoE.Backend.ParallelTeam
