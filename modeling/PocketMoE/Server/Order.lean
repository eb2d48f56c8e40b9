import PocketMoE.Server.Delivery

/-!
# The order of the requests

In a run of the serving engine the worker never waits for a place in its own queue, and requests
are started in the order of their acceptance, exactly when every put leaves a place for what the
worker has to put back, and a candidate goes back only to a queue without requests (`ordered_iff`).
-/

namespace PocketMoE.Serving
open PocketMoE.Lib

namespace Engine

variable {J ι κ : Type*} {engine : Engine J ι} {s t : State ι κ} {i : ι}

/-- The worker is not blocked, and the accepted requests are, in their order, the started ones, the
one that is to be put back, and those of the queue. -/
structure Ordered (engine : Engine J ι) (s : State ι κ) : Prop where
  unblocked : ¬ Blocked engine s
  order : s.accepted = s.started ++ (s.worker.returns.reduceOption ++ s.queue.reduceOption)

/-- What is put leaves a place for what the worker puts back, and a candidate goes back only to a
queue without requests. -/
def Unhurried (engine : Engine J ι) (s : State ι κ) : Event ι κ → Prop
  | .put _ => LeavesPlace engine s
  | .putSentinel _ => LeavesPlace engine s
  | .requeue => ∀ i, some i ∈ s.worker.returns → s.queue.reduceOption = []
  | _ => True

lemma Ordered.started (ordered : Ordered engine s) : s.started <+: s.accepted :=
  ⟨_, ordered.order.symm⟩

/-- What every state of an unhurried run satisfies. -/
structure Steady (engine : Engine J ι) (s : State ι κ) : Prop extends Ordered engine s where
  fits : Fits engine s

lemma Steady.init : Steady engine (Engine.init : State ι κ) where
  unblocked := fun blocked => blocked.1 rfl
  order := rfl
  fits := fun bounded => Int.le_of_lt bounded

lemma Ordered.same (ordered : Ordered engine s) (queue : t.queue = s.queue)
    (returns : t.worker.returns = s.worker.returns) (accepted : t.accepted = s.accepted)
    (started : t.started = s.started) : Ordered engine t where
  unblocked := by
    rw [Blocked, queue, returns]
    exact ordered.unblocked
  order := by
    rw [queue, returns, accepted, started]
    exact ordered.order

lemma eq_nil_of_cons_eq_append {l : List ι} (nodup : (i :: l).Nodup) (eq : i :: l = l ++ [i]) :
    l = [] := by
  cases l with
  | nil => rfl
  | cons j rest =>
    obtain ⟨rfl, -⟩ := List.cons_eq_cons.mp eq
    exact absurd (List.mem_cons_self ..) (List.nodup_cons.mp nodup).1

variable [DecidableEq ι] [DecidableEq κ]

lemma Ordered.step (ordered : Ordered engine s) (fits : Fits engine s) {e : Event ι κ}
    (unhurried : Unhurried engine s e) (st : Step engine s e t) : Ordered engine t := by
  have order := ordered.order
  cases st with
  | check => exact ordered.same rfl rfl rfl rfl
  | reject => exact ordered.same rfl rfl rfl rfl
  | read => exact ordered.same rfl rfl rfl rfl
  | testClosed => exact ordered.same rfl rfl rfl rfl
  | setClosed => exact ordered.same rfl rfl rfl rfl
  | emit => exact ordered.same rfl rfl rfl rfl
  | endStream here => exact ordered.same rfl (by rw [here]; rfl) rfl rfl
  | stopCollecting here => exact ordered.same rfl (by rw [here]; rfl) rfl rfl
  | finish here => exact ordered.same rfl (by rw [here]; rfl) rfl rfl
  | @accept i here room =>
    refine ⟨LeavesPlace.unblocked unhurried (some i) rfl rfl room, ?_⟩
    simp [order, List.reduceOption_append]
  | @putSentinel k here =>
    cases room : full engine.maxQueue s.queue.length with
    | true => exact ordered.same rfl rfl rfl rfl
    | false =>
      refine ⟨LeavesPlace.unblocked unhurried none rfl rfl room, ?_⟩
      simpa [List.reduceOption_append] using order
  | @take item rest here queue =>
    refine ⟨fun blocked => blocked.1 (returns_afterTake engine item), ?_⟩
    rw [here, queue] at order
    show s.accepted = _ ++ ((engine.afterTake item).returns.reduceOption ++ _)
    rw [order, returns_afterTake]
    cases item with
    | none => simp [Worker.returns]
    | some i => simp [Worker.returns]
  | @collect first others item rest here fewer waits queue =>
    refine ⟨?_, ?_⟩
    · rintro ⟨-, noRoom⟩
      exact absurd noRoom (Bool.eq_false_iff.mp (fits.room_of_cons queue))
    · rw [here, queue] at order
      show s.accepted = _ ++ ((engine.afterCollect first others item).returns.reduceOption ++ _)
      rw [order]
      cases item with
      | none => simp [Worker.returns, afterCollect]
      | some i =>
        cases refused : engine.refuses first i with
        | true => simp [Worker.returns, afterCollect_refused refused, Option.filter_some, refused]
        | false => simp [Worker.returns, afterCollect_joins refused, Option.filter_some, refused]
  | @requeue first others item here room =>
    refine ⟨fun blocked => blocked.1 rfl, ?_⟩
    rw [here] at order
    show s.accepted = s.started ++ ([] ++ (s.queue ++ [item]).reduceOption)
    cases item with
    | none => simpa [Worker.returns, List.reduceOption_append] using order
    | some i =>
      have empty := unhurried i (by rw [here]; exact List.mem_singleton_self _)
      simpa [Worker.returns, List.reduceOption_append, empty] using order

lemma Ordered.unhurried {e : Event ι κ} (conserved : Conserved engine s)
    (before : Ordered engine s) (st : Step engine s e t) (after : Ordered engine t) :
    Unhurried engine s e := by
  cases st with
  | @accept i here room => exact LeavesPlace.of_unblocked after.unblocked (some i) rfl rfl
  | @reject i here noRoom =>
    intro room
    rw [noRoom] at room
    cases room
  | @putSentinel k here =>
    intro room
    exact LeavesPlace.of_unblocked after.unblocked none (if_neg (Bool.eq_false_iff.mp room)) rfl
      room
  | @requeue first others item here room =>
    intro i back
    rw [here] at back
    obtain rfl := (List.mem_singleton.mp back).symm
    have order := before.order
    rw [here] at order
    have order' : s.accepted = s.started ++ ([] ++ (s.queue ++ [some i]).reduceOption) := after.order
    have same : i :: s.queue.reduceOption = s.queue.reduceOption ++ [i] := by
      have eq := order.symm.trans order'
      simpa [Worker.returns, List.reduceOption_append] using eq
    refine eq_nil_of_cons_eq_append ?_ same
    have nodup := conserved.nodup
    rw [order] at nodup
    exact (List.nodup_append.mp nodup).2.1
  | _ => trivial

/-- For any bound of the queue, any requests and any threads: in a run the worker is never blocked
on its own queue and the requests keep their order exactly when the steps are unhurried. -/
theorem ordered_iff (engine : Engine J ι) {trace : List (State ι κ × Event ι κ)}
    {last : State ι κ} (run : Run (Step engine) Engine.init trace last) :
    Meets (Unhurried engine) trace ↔ Throughout (Ordered engine) trace last := by
  constructor
  · intro unhurried
    have all := run.invariant Steady.init (fun steady here st =>
      ⟨steady.toOrdered.step steady.fits here st, steady.fits.step st⟩) unhurried
    exact all.imp Steady.toOrdered
  · intro ordered
    have conserved := run.invariant Conserved.init (C := fun _ _ => True)
      (fun conserved _ st => Conserved.step conserved st) fun _ _ => trivial
    exact run.meets (fun both st both' => Ordered.unhurried both.1 both.2 st both'.2)
      (conserved.and ordered)

end Engine

/-! ## Three requests for a queue of one or two places -/

/-- The requests of `streamAndPlain` by number, the second one's that of a stream, with a bound on
the queue. -/
def threeRequests (maxQueue : Int) : Engine Unit Nat where
  maxQueue := maxQueue
  maxRunningRequests := 2
  batchWaitMs := 2
  maxTotalTokens := 0
  eventQueue := 1024
  maxBatchSize := 2
  same := fun _ _ => true
  request := fun i => streamAndPlain.request (i == 1)

open PocketMoE.Serving.Engine in
lemma threeRequests_overtaken : ∃ trace, ∃ last : State Nat Unit,
    Run (Step (threeRequests 2)) Engine.init trace last ∧
      last.accepted = [0, 1, 2] ∧ last.started = [0, 2, 1] := by
  have waits : 0 < max 0 (threeRequests 2).batchWaitMs := by decide +kernel
  have run : Run (Step (threeRequests 2)) (Engine.init : State Nat Unit) _ _ :=
    .cons (.check (i := 0) rfl) <| .cons (.accept (i := 0) rfl rfl) <|
    .cons (.take rfl rfl) <|
    .cons (.check (i := 1) rfl) <| .cons (.accept (i := 1) rfl rfl) <|
    .cons (.check (i := 2) rfl) <| .cons (.accept (i := 2) rfl rfl) <|
    .cons (.collect rfl (by decide) waits rfl) <| .cons (.requeue rfl rfl) <|
    .cons (@Step.finish _ _ _ _ _ _ _ [0] .result rfl rfl) <| .cons (.take rfl rfl) <|
    .cons (.stopCollecting rfl) <|
    .cons (@Step.finish _ _ _ _ _ _ _ [2] .result rfl rfl) <| .cons (.take rfl rfl) <| .nil _
  exact ⟨_, _, run, rfl, rfl⟩

open PocketMoE.Serving.Engine in
lemma threeRequests_blocked : ∃ trace, ∃ last : State Nat Unit,
    Run (Step (threeRequests 1)) Engine.init trace last ∧ Blocked (threeRequests 1) last := by
  have waits : 0 < max 0 (threeRequests 1).batchWaitMs := by decide +kernel
  have run : Run (Step (threeRequests 1)) (Engine.init : State Nat Unit) _ _ :=
    .cons (.check (i := 0) rfl) <| .cons (.accept (i := 0) rfl rfl) <|
    .cons (.take rfl rfl) <|
    .cons (.check (i := 1) rfl) <| .cons (.accept (i := 1) rfl rfl) <|
    .cons (.collect rfl (by decide) waits rfl) <|
    .cons (.check (i := 2) rfl) <| .cons (.accept (i := 2) rfl rfl) <| .nil _
  exact ⟨_, _, run, And.intro (List.cons_ne_nil _ _) rfl⟩

open PocketMoE.Serving.Engine in
theorem ordered_iff_overtaken : ∃ trace, ∃ last : State Nat Unit,
    Run (Step (threeRequests 2)) Engine.init trace last ∧
      (Meets (Unhurried (threeRequests 2)) trace ↔
        Throughout (Ordered (threeRequests 2)) trace last) := by
  obtain ⟨trace, last, run, _⟩ := threeRequests_overtaken
  exact ⟨trace, last, run, ordered_iff (threeRequests 2) run⟩

open PocketMoE.Serving.Engine in
/-- With one place the worker is blocked, with two a request is overtaken. -/
theorem not_ordered_three :
    (¬ ∀ trace, ∀ last : State Nat Unit, Run (Step (threeRequests 1)) Engine.init trace last →
      Throughout (fun s => ¬ Blocked (threeRequests 1) s) trace last) ∧
    ¬ ∀ trace, ∀ last : State Nat Unit, Run (Step (threeRequests 2)) Engine.init trace last →
      Throughout (fun s => s.started <+: s.accepted) trace last := by
  constructor
  · intro claim
    obtain ⟨trace, last, run, blocked⟩ := threeRequests_blocked
    exact (claim trace last run).2 blocked
  · intro claim
    obtain ⟨trace, last, run, accepted, started⟩ := threeRequests_overtaken
    have ordered : last.started <+: last.accepted := (claim trace last run).2
    rw [accepted, started] at ordered
    exact absurd ordered (by decide)

end PocketMoE.Serving
