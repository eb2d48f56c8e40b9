import PocketMoE.Server.Serving

/-!
# Every accepted request has its outcome

In a run of the serving engine every accepted request reaches its one outcome exactly when the
steps are orderly (`delivered_iff`). The orders that go wrong put a request, a client's or one that
the collector took, behind a sentinel or after the worker's exit, or fill the queue while the
worker has an item to put back.

The invariant `Sound` adds to `Conserved` that the requests in the queue, and the item on its way
back, stand before the sentinels. That a sound state leads to all outcomes is `Sound.works`: by
its own steps the worker gets back to waiting (`Works.wait`) and empties the queue (`Works.drain`).
-/

namespace PocketMoE.Serving
open PocketMoE.Lib

namespace Engine

variable {J ι κ : Type*}

/-- No request stands behind a sentinel. -/
def RequestsFirst (items : List (Option ι)) : Prop :=
  items.Pairwise fun a b => a = none → b = none

/-- The worker waits for a place in its own queue. -/
def Blocked (engine : Engine J ι) (s : State ι κ) : Prop :=
  s.worker.returns ≠ [] ∧ full engine.maxQueue s.queue.length = true

/-- The queue keeps its bound. -/
def Fits (engine : Engine J ι) (s : State ι κ) : Prop :=
  0 < engine.maxQueue → (s.queue.length : Int) ≤ engine.maxQueue

/-- A put while the worker has an item to put back leaves a place for it. -/
def LeavesPlace (engine : Engine J ι) (s : State ι κ) : Prop :=
  full engine.maxQueue s.queue.length = false → s.worker.returns ≠ [] →
    full engine.maxQueue (s.queue.length + 1) = false

section Lists

variable {items front back : List (Option ι)} {i : ι}

lemma RequestsFirst.of_front (requests : none ∉ front) (short : back.length ≤ 1) :
    RequestsFirst (front ++ back) := by
  refine List.pairwise_append.mpr ⟨?_, ?_, ?_⟩
  · refine List.pairwise_of_forall_mem_list fun a here b _ eq => ?_
    exact absurd (eq ▸ here) requests
  · cases back with
    | nil => exact List.Pairwise.nil
    | cons item rest =>
      cases rest with
      | nil => exact List.pairwise_singleton _ _
      | cons item' rest' => simp at short
  · exact fun a here b _ eq => absurd (eq ▸ here) requests

lemma RequestsFirst.append_sentinels (first : RequestsFirst front) (sentinels : ∀ i, some i ∉ back) :
    RequestsFirst (front ++ back) := by
  have all : ∀ b ∈ back, b = none := by
    intro b here
    cases b with
    | none => rfl
    | some i => exact absurd here (sentinels i)
  refine List.pairwise_append.mpr ⟨first, ?_, fun _ _ b here _ => all b here⟩
  exact List.pairwise_of_forall_mem_list fun _ _ b here _ => all b here

lemma RequestsFirst.not_mem (first : RequestsFirst (front ++ some i :: back)) : none ∉ front := by
  intro sentinel
  have behind := (List.pairwise_append.mp first).2.2 none sentinel (some i) (by simp) rfl
  cases behind

lemma RequestsFirst.tail_empty (first : RequestsFirst (none :: back)) : back.reduceOption = [] := by
  refine List.eq_nil_iff_forall_not_mem.mpr fun i member => ?_
  have behind := (List.pairwise_cons.mp first).1 (some i) (List.reduceOption_mem_iff.mp member) rfl
  cases behind

end Lists

variable {engine : Engine J ι} {s t u : State ι κ} {i : ι}

lemma Conserved.outcomes_nodup (conserved : Conserved engine s) :
    (s.outcomes.map Prod.fst).Nodup :=
  (List.nodup_append.mp (conserved.places.nodup conserved.nodup)).1

lemma Conserved.open_of_queued (conserved : Conserved engine s) (queued : some i ∈ s.queue) :
    i ∉ s.outcomes.map Prod.fst := by
  intro isOver
  have apart := (List.nodup_append.mp (conserved.places.nodup conserved.nodup)).2.2
  have here : i ∈ s.worker.inHand ++ s.queue.reduceOption :=
    List.mem_append_right _ (List.reduceOption_mem_iff.mpr queued)
  exact apart i isOver i here rfl

lemma mem_inHand {worker : Worker ι} (member : i ∈ worker.inHand) :
    i ∈ worker.keeps ∨ some i ∈ worker.returns := by
  cases worker with
  | putBack first others item =>
    rcases List.mem_append.mp member with kept | back
    · exact Or.inl kept
    · rw [Option.mem_toList] at back
      exact Or.inr (List.mem_singleton.mpr back.symm)
  | _ => exact Or.inl member

lemma fits_append (room : full engine.maxQueue s.queue.length = false) (item : Option ι) :
    0 < engine.maxQueue → ((s.queue ++ [item]).length : Int) ≤ engine.maxQueue := by
  intro bounded
  simp only [full, Bool.and_eq_false_iff, decide_eq_false_iff_not] at room
  rw [List.length_append, List.length_singleton]
  omega

lemma afterTake_busy (engine : Engine J ι) (i : ι) : engine.afterTake (some i) ≠ .exited := by
  simp only [afterTake]
  split_ifs
  · rintro ⟨⟩
  · rintro ⟨⟩
  · rintro ⟨⟩

lemma afterCollect_refused {first : ι} {others : List ι} (refused : engine.refuses first i = true) :
    engine.afterCollect first others (some i) = .putBack first others (some i) :=
  if_pos refused

lemma afterCollect_joins {first : ι} {others : List ι} (joins : engine.refuses first i = false) :
    engine.afterCollect first others (some i) = .collecting first (others ++ [i]) :=
  if_neg (Bool.eq_false_iff.mp joins)

lemma afterCollect_busy (engine : Engine J ι) (first : ι) (others : List ι) (item : Option ι) :
    engine.afterCollect first others item ≠ .exited := by
  cases item with
  | none => rintro ⟨⟩
  | some i =>
    simp only [afterCollect]
    split_ifs
    · rintro ⟨⟩
    · rintro ⟨⟩

lemma returns_afterTake (engine : Engine J ι) (item : Option ι) :
    (engine.afterTake item).returns = [] := by
  cases item with
  | none => rfl
  | some i =>
    simp only [afterTake]
    split_ifs
    · rfl
    · rfl
    · rfl

lemma Fits.room_of_cons (fits : Fits engine s) {item : Option ι} {rest : List (Option ι)}
    (queue : s.queue = item :: rest) : full engine.maxQueue rest.length = false := by
  have before := fits
  rw [Fits, queue, List.length_cons] at before
  simp only [full, Bool.and_eq_false_iff, decide_eq_false_iff_not]
  by_cases bounded : 0 < engine.maxQueue
  · have bound := before bounded
    right
    omega
  · exact Or.inl bounded

lemma LeavesPlace.of_unblocked (unblocked : ¬ Blocked engine t) (item : Option ι)
    (queue : t.queue = s.queue ++ [item]) (worker : t.worker = s.worker) : LeavesPlace engine s := by
  intro _ returns
  cases noRoom : full engine.maxQueue (s.queue.length + 1) with
  | false => rfl
  | true =>
    refine absurd ⟨?_, ?_⟩ unblocked
    · rw [worker]
      exact returns
    · rw [queue, List.length_append, List.length_singleton]
      exact noRoom

lemma LeavesPlace.unblocked (place : LeavesPlace engine s) (item : Option ι)
    (queue : t.queue = s.queue ++ [item]) (worker : t.worker = s.worker)
    (room : full engine.maxQueue s.queue.length = false) : ¬ Blocked engine t := by
  rintro ⟨returns, noRoom⟩
  rw [worker] at returns
  rw [queue, List.length_append, List.length_singleton, place room returns] at noRoom
  cases noRoom

variable [DecidableEq ι] [DecidableEq κ]

lemma Fits.step (fits : Fits engine s) {e : Event ι κ} (st : Step engine s e t) :
    Fits engine t := by
  cases st with
  | accept here room => exact fits_append room _
  | putSentinel here =>
    cases room : full engine.maxQueue s.queue.length with
    | true => exact fits
    | false => exact fits_append room _
  | requeue here room => exact fits_append room _
  | @take item rest here queue =>
    intro bounded
    have before := fits bounded
    rw [queue, List.length_cons] at before
    show (rest.length : Int) ≤ _
    omega
  | @collect first others item rest here fewer waits queue =>
    intro bounded
    have before := fits bounded
    rw [queue, List.length_cons] at before
    show (rest.length : Int) ≤ _
    omega
  | check => exact fits
  | reject => exact fits
  | read => exact fits
  | testClosed => exact fits
  | setClosed => exact fits
  | emit => exact fits
  | endStream => exact fits
  | stopCollecting => exact fits
  | finish => exact fits

/-! ## The worker finishes what it has -/

/-- The worker, and clients that read their streams, get from one state to another. -/
def Works (engine : Engine J ι) (s t : State ι κ) : Prop :=
  ∃ trace, Run (Step engine) s trace t ∧ ∀ x ∈ trace, x.2.ofWorker = true

lemma Works.refl (s : State ι κ) : Works engine s s :=
  ⟨[], .nil s, fun _ member => absurd member List.not_mem_nil⟩

lemma Works.head {e : Event ι κ} (st : Step engine s e t) (own : e.ofWorker = true)
    (works : Works engine t u) : Works engine s u := by
  obtain ⟨trace, run, all⟩ := works
  exact ⟨(s, e) :: trace, .cons st run, List.forall_mem_cons.mpr ⟨own, all⟩⟩

lemma Works.trans (first : Works engine s t) (second : Works engine t u) : Works engine s u := by
  obtain ⟨front, run, all⟩ := first
  obtain ⟨back, run', all'⟩ := second
  exact ⟨front ++ back, run.append run', List.forall_mem_append.mpr ⟨all, all'⟩⟩

lemma Works.reads (engine : Engine J ι) (s : State ι κ) (i : ι) : ∃ events, events i = 0 ∧
    Works engine s { s with events := events } := by
  induction count : s.events i generalizing s with
  | zero => exact ⟨s.events, count, Works.refl s⟩
  | succ rest ih =>
    obtain ⟨events, empty, works⟩ :=
      ih { s with events := Function.update s.events i rest } (Function.update_self ..)
    exact ⟨events, empty, Works.head (.read count) rfl works⟩

lemma Works.wait (engine : Engine J ι) (busy : s.worker ≠ .exited) (unblocked : ¬ Blocked engine s) :
    ∃ t, Works engine s t ∧ t.worker = .waiting ∧ t.queue = s.queue ++ s.worker.returns ∧
      t.outcomes.map Prod.fst = s.outcomes.map Prod.fst ++ s.worker.keeps := by
  cases here : s.worker with
  | exited => exact absurd here busy
  | waiting =>
    refine ⟨s, Works.refl s, here, ?_, ?_⟩
    · exact (List.append_nil _).symm
    · exact (List.append_nil _).symm
  | streaming i =>
    obtain ⟨events, empty, works⟩ := Works.reads engine s i
    have room : full engine.eventQueue (events i) = false := by
      rw [empty]
      simp only [full, Bool.and_eq_false_iff, decide_eq_false_iff_not]
      omega
    have ends : Step engine { s with events := events } (.endStream .ended) _ :=
      .endStream here room rfl
    refine ⟨_, works.trans (Works.head ends rfl (Works.refl _)), rfl, ?_, ?_⟩
    · exact (List.append_nil _).symm
    · exact List.map_append
  | running batch =>
    have finish : Step engine s (.finish .result) _ := .finish here rfl
    refine ⟨_, Works.head finish rfl (Works.refl _), rfl, ?_, ?_⟩
    · exact (List.append_nil _).symm
    · simp [Worker.keeps, Worker.inHand, Function.comp_def]
  | collecting first others =>
    have stop : Step engine s .stopCollecting _ := .stopCollecting here
    have finish : Step engine { s with worker := .running (first :: others) } (.finish .result) _ :=
      .finish rfl rfl
    refine ⟨_, Works.head stop rfl (Works.head finish rfl (Works.refl _)), rfl, ?_, ?_⟩
    · exact (List.append_nil _).symm
    · simp [Worker.keeps, Worker.inHand, Function.comp_def]
  | putBack first others item =>
    have room : full engine.maxQueue s.queue.length = false := by
      cases noRoom : full engine.maxQueue s.queue.length with
      | false => rfl
      | true => exact absurd ⟨by rw [here]; exact List.cons_ne_nil _ _, noRoom⟩ unblocked
    have back : Step engine s .requeue _ := .requeue here room
    have finish : Step engine
        { s with queue := s.queue ++ [item], worker := .running (first :: others) }
        (.finish .result) _ := .finish rfl rfl
    refine ⟨_, Works.head back rfl (Works.head finish rfl (Works.refl _)), rfl, rfl, ?_⟩
    simp [Worker.keeps, Function.comp_def]

lemma Works.drain {items : List (Option ι)} (queue : s.queue = items) (waits : s.worker = .waiting)
    (first : RequestsFirst items) : ∃ t, Works engine s t ∧
      t.outcomes.map Prod.fst = s.outcomes.map Prod.fst ++ items.reduceOption := by
  induction items generalizing s with
  | nil => exact ⟨s, Works.refl s, (List.append_nil _).symm⟩
  | cons item rest ih =>
    cases item with
    | none =>
      -- only sentinels are left
      refine ⟨s, Works.refl s, ?_⟩
      rw [List.reduceOption_cons_of_none, first.tail_empty, List.append_nil]
    | some i =>
      have take : Step engine s .take _ := .take waits queue
      have returns := returns_afterTake engine (some i)
      have keeps : (engine.afterTake (some i)).keeps = [i] := by
        simp only [afterTake]
        split_ifs <;> rfl
      obtain ⟨t, works, waits', queue', outcomes⟩ := Works.wait engine
        (s := { s with
          queue := rest
          worker := engine.afterTake (some i)
          started := s.started ++ [i] }) (afterTake_busy engine i) fun blocked => blocked.1 returns
      obtain ⟨u, works', outcomes'⟩ := ih (queue'.trans (by rw [returns, List.append_nil])) waits'
        (List.pairwise_cons.mp first).2
      refine ⟨u, Works.head take rfl (works.trans works'), ?_⟩
      rw [outcomes', outcomes, keeps, List.reduceOption_cons_of_some, List.append_assoc]
      rfl

/-! ## Every accepted request has its outcome -/

/-- Every accepted request reaches its outcome, and only one: the worker exits with all outcomes
given, and till then no request is behind a sentinel, the worker is not blocked, and its own steps
lead to all outcomes. -/
structure Delivered (engine : Engine J ι) (s : State ι κ) : Prop where
  once : (s.outcomes.map Prod.fst).Nodup
  kinds : ∀ x ∈ s.outcomes, x.2.ofStream = (engine.request x.1).stream
  ended : s.worker = .exited → ∀ i ∈ s.accepted, i ∈ s.outcomes.map Prod.fst
  first : RequestsFirst (s.queue ++ s.worker.returns)
  unblocked : ¬ Blocked engine s
  reaches : ∃ t, Works engine s t ∧ ∀ i ∈ s.accepted, i ∈ t.outcomes.map Prod.fst

/-- No request is put on the queue, and no candidate is taken to be put back, while a sentinel is
in the queue; no sentinel is put while a candidate is to be put back; no request is put after the
worker's exit; and what is put leaves a place for what the worker puts back. -/
def Orderly (engine : Engine J ι) (s : State ι κ) : Event ι κ → Prop
  | .put _ => LeavesPlace engine s ∧
    (full engine.maxQueue s.queue.length = false → none ∉ s.queue ∧ s.worker ≠ .exited)
  | .putSentinel _ => LeavesPlace engine s ∧
    (full engine.maxQueue s.queue.length = false → ∀ i, some i ∉ s.worker.returns)
  | .collect => ∀ first others i rest, s.worker = .collecting first others →
    s.queue = some i :: rest → engine.refuses first i = true → none ∉ rest
  | _ => True

/-- What every state of an orderly run satisfies. -/
structure Sound (engine : Engine J ι) (s : State ι κ) : Prop extends Conserved engine s where
  fits : Fits engine s
  ended : s.worker = .exited → ∀ i ∈ s.accepted, i ∈ s.outcomes.map Prod.fst
  first : RequestsFirst (s.queue ++ s.worker.returns)
  unblocked : ¬ Blocked engine s

omit [DecidableEq ι] [DecidableEq κ] in
lemma Sound.init : Sound engine (Engine.init : State ι κ) where
  toConserved := Conserved.init
  fits := fun bounded => Int.le_of_lt bounded
  ended := fun exited => by cases exited
  first := List.Pairwise.nil
  unblocked := fun blocked => blocked.1 rfl

lemma Sound.works (sound : Sound engine s) :
    ∃ t, Works engine s t ∧ ∀ i ∈ s.accepted, i ∈ t.outcomes.map Prod.fst := by
  by_cases exited : s.worker = .exited
  · exact ⟨s, Works.refl s, sound.ended exited⟩
  · obtain ⟨t, works, waits, queue, outcomes⟩ := Works.wait engine exited sound.unblocked
    obtain ⟨u, works', outcomes'⟩ := Works.drain queue waits sound.first
    refine ⟨u, works.trans works', fun i member => ?_⟩
    rw [outcomes', outcomes, List.reduceOption_append]
    have place := sound.places.mem_iff.mp member
    simp only [List.mem_append, List.reduceOption_mem_iff] at place ⊢
    rcases place with isOver | hand | queued
    · exact Or.inl (Or.inl isOver)
    · rcases mem_inHand hand with kept | back
      · exact Or.inl (Or.inr kept)
      · exact Or.inr (Or.inr back)
    · exact Or.inr (Or.inl queued)

lemma Sound.delivered (sound : Sound engine s) : Delivered engine s where
  once := sound.outcomes_nodup
  kinds := sound.kinds
  ended := sound.ended
  first := sound.first
  unblocked := sound.unblocked
  reaches := sound.works

lemma Sound.quiet (sound : Sound engine s) {e : Event ι κ} (st : Step engine s e t)
    (accepted : t.accepted = s.accepted) (outcomes : t.outcomes = s.outcomes)
    (exits : t.worker = .exited → s.worker = .exited)
    (first : RequestsFirst (t.queue ++ t.worker.returns)) (unblocked : ¬ Blocked engine t) :
    Sound engine t where
  toConserved := sound.toConserved.step st
  fits := sound.fits.step st
  ended := fun exited => by
    rw [accepted, outcomes]
    exact sound.ended (exits exited)
  first := first
  unblocked := unblocked

lemma Sound.accept (sound : Sound engine s) (orderly : Orderly engine s (.put i))
    (room : full engine.maxQueue s.queue.length = false) (st : Step engine s (.put i) t)
    (queue : t.queue = s.queue ++ [some i]) (worker : t.worker = s.worker) : Sound engine t := by
  obtain ⟨place, free⟩ := orderly
  obtain ⟨requests, busy⟩ := free room
  refine ⟨sound.toConserved.step st, sound.fits.step st, ?_, ?_,
    place.unblocked (some i) queue worker room⟩
  · intro exited
    exact absurd (worker.symm.trans exited) busy
  · rw [queue, worker]
    refine RequestsFirst.of_front ?_ ?_
    · intro sentinel
      rcases List.mem_append.mp sentinel with old | new
      · exact requests old
      · cases List.mem_singleton.mp new
    · cases s.worker with
      | putBack => exact le_refl 1
      | _ => exact Nat.zero_le 1

lemma Sound.putSentinel (sound : Sound engine s) {k : κ} (orderly : Orderly engine s (.putSentinel k))
    (here : s.closer k = .flagged) : Sound engine { s with
      queue := if full engine.maxQueue s.queue.length then s.queue else s.queue ++ [none]
      closer := Function.update s.closer k .returned } := by
  obtain ⟨place, plain⟩ := orderly
  refine sound.quiet (.putSentinel here) rfl rfl id ?_ ?_
  · cases room : full engine.maxQueue s.queue.length with
    | true => exact sound.first
    | false =>
      show RequestsFirst ((s.queue ++ [none]) ++ s.worker.returns)
      rw [List.append_assoc]
      refine RequestsFirst.append_sentinels (List.pairwise_append.mp sound.first).1 ?_
      intro i member
      rcases List.mem_append.mp member with sentinel | back
      · cases List.mem_singleton.mp sentinel
      · exact plain room i back
  · cases room : full engine.maxQueue s.queue.length with
    | true =>
      rintro ⟨returns, -⟩
      exact sound.unblocked ⟨returns, room⟩
    | false => exact place.unblocked none rfl rfl room

lemma Sound.take (sound : Sound engine s) {item : Option ι} {rest : List (Option ι)}
    (here : s.worker = .waiting) (queue : s.queue = item :: rest) : Sound engine { s with
      queue := rest
      worker := engine.afterTake item
      started := s.started ++ item.toList } := by
  have first : RequestsFirst (item :: rest) := by
    have same := sound.first
    rw [queue] at same
    exact (List.pairwise_append.mp same).1
  refine ⟨sound.toConserved.step (.take here queue), sound.fits.step (.take here queue), ?_, ?_,
    fun blocked => blocked.1 (returns_afterTake engine item)⟩
  · intro exited i member
    have place := sound.places.mem_iff.mp member
    cases item with
    | none =>
      rw [here, queue, List.reduceOption_cons_of_none, first.tail_empty] at place
      simpa [Worker.inHand] using place
    | some j => exact absurd exited (afterTake_busy engine j)
  · show RequestsFirst (rest ++ (engine.afterTake item).returns)
    rw [returns_afterTake, List.append_nil]
    exact (List.pairwise_cons.mp first).2

lemma Sound.collect (sound : Sound engine s) (orderly : Orderly engine s .collect)
    {first : ι} {others : List ι} {item : Option ι} {rest : List (Option ι)}
    (here : s.worker = .collecting first others) (queue : s.queue = item :: rest)
    (st : Step engine s .collect t) (taken : t.queue = rest)
    (worker : t.worker = engine.afterCollect first others item)
    (accepted : t.accepted = s.accepted) (outcomes : t.outcomes = s.outcomes) :
    Sound engine t := by
  have tail : RequestsFirst rest := by
    have same := sound.first
    rw [queue] at same
    exact (List.pairwise_cons.mp (List.pairwise_append.mp same).1).2
  refine sound.quiet st accepted outcomes ?_ ?_ ?_
  · intro exited
    rw [worker] at exited
    exact absurd exited (afterCollect_busy engine first others item)
  · rw [taken, worker]
    cases item with
    | none =>
      refine tail.append_sentinels fun i member => ?_
      cases List.mem_singleton.mp member
    | some i =>
      cases refused : engine.refuses first i with
      | true =>
        rw [afterCollect_refused refused]
        exact RequestsFirst.of_front (orderly first others i rest here queue refused) (le_refl 1)
      | false =>
        rw [afterCollect_joins refused, Worker.returns, List.append_nil]
        · exact tail
        · exact nofun
  · rintro ⟨-, noRoom⟩
    rw [taken] at noRoom
    exact absurd noRoom (Bool.eq_false_iff.mp (sound.fits.room_of_cons queue))

lemma Sound.step (sound : Sound engine s) {e : Event ι κ} (orderly : Orderly engine s e)
    (st : Step engine s e t) : Sound engine t := by
  have first := sound.first
  cases st with
  | check here => exact sound.quiet (.check here) rfl rfl id first sound.unblocked
  | accept here room => exact sound.accept orderly room (.accept here room) rfl rfl
  | reject here noRoom => exact sound.quiet (.reject here noRoom) rfl rfl id first sound.unblocked
  | read some => exact sound.quiet (.read some) rfl rfl id first sound.unblocked
  | testClosed here => exact sound.quiet (.testClosed here) rfl rfl id first sound.unblocked
  | setClosed here => exact sound.quiet (.setClosed here) rfl rfl id first sound.unblocked
  | putSentinel here => exact sound.putSentinel orderly here
  | take here queue => exact sound.take here queue
  | emit here room => exact sound.quiet (.emit here room) rfl rfl id first sound.unblocked
  | endStream here room streams =>
    refine ⟨sound.toConserved.step (.endStream here room streams),
      sound.fits.step (.endStream here room streams), nofun, ?_, fun blocked => blocked.1 rfl⟩
    rw [here] at first
    exact first
  | collect here fewer waits queue =>
    exact sound.collect orderly here queue (.collect here fewer waits queue) rfl rfl rfl rfl
  | stopCollecting here =>
    refine sound.quiet (.stopCollecting here) rfl rfl nofun ?_ fun blocked => blocked.1 rfl
    rw [here] at first
    exact first
  | @requeue _ others item here room =>
    refine sound.quiet (.requeue here room) rfl rfl nofun ?_ fun blocked => blocked.1 rfl
    rw [here] at first
    show RequestsFirst ((s.queue ++ [item]) ++ [])
    rw [List.append_nil]
    exact first
  | finish here plain =>
    refine ⟨sound.toConserved.step (.finish here plain), sound.fits.step (.finish here plain),
      nofun, ?_, fun blocked => blocked.1 rfl⟩
    rw [here] at first
    exact first

lemma Delivered.orderly {e : Event ι κ} (st : Step engine s e t) (conserved : Conserved engine t)
    (delivered : Delivered engine t) : Orderly engine s e := by
  cases st with
  | @accept i here room =>
    refine ⟨LeavesPlace.of_unblocked delivered.unblocked (some i) rfl rfl,
      fun _ => ⟨?_, fun exited => ?_⟩⟩
    · have first : RequestsFirst ((s.queue ++ [some i]) ++ s.worker.returns) := delivered.first
      rw [List.append_assoc] at first
      exact first.not_mem
    · refine conserved.open_of_queued (i := i) ?_ ?_
      · exact List.mem_append_right _ (List.mem_singleton_self _)
      · exact delivered.ended exited i (List.mem_append_right _ (List.mem_singleton_self _))
  | @reject i here noRoom =>
    refine ⟨fun room => ?_, fun room => ?_⟩
    · rw [noRoom] at room
      cases room
    · rw [noRoom] at room
      cases room
  | @putSentinel k here =>
    refine ⟨fun room => ?_, fun room i back => ?_⟩
    · exact LeavesPlace.of_unblocked delivered.unblocked none (if_neg (Bool.eq_false_iff.mp room))
        rfl room
    · have first := delivered.first
      simp only [room] at first
      have behind := (List.pairwise_append.mp first).2.2 none (by simp) (some i) back rfl
      cases behind
  | @collect first' others item rest here fewer waits queue =>
    intro first others' i rest' here' queue' refused sentinel
    cases here.symm.trans here'
    cases queue.symm.trans queue'
    have first : RequestsFirst (rest ++ (engine.afterCollect first' others (some i)).returns) :=
      delivered.first
    rw [afterCollect_refused refused] at first
    exact first.not_mem sentinel
  | _ => trivial

/-- For any settings, requests and threads: in a run every accepted request reaches its one
outcome exactly when the steps are orderly. -/
theorem delivered_iff (engine : Engine J ι) {trace : List (State ι κ × Event ι κ)}
    {last : State ι κ} (run : Run (Step engine) Engine.init trace last) :
    Meets (Orderly engine) trace ↔ Throughout (Delivered engine) trace last := by
  constructor
  · intro orderly
    have all := run.invariant Sound.init (fun sound here st => Sound.step sound here st) orderly
    exact all.imp Sound.delivered
  · intro delivered
    have conserved := run.invariant Conserved.init (C := fun _ _ => True)
      (fun conserved _ st => Conserved.step conserved st) fun _ _ => trivial
    exact run.meets (fun _ st both => both.2.orderly st both.1) (conserved.and delivered)

end Engine

/-! ## A stream and a plain request at the end -/

/-- Two requests for two tokens each, in an engine that batches two; `true` streams. -/
def streamAndPlain : Engine Unit Bool where
  maxQueue := 4
  maxRunningRequests := 2
  batchWaitMs := 2
  maxTotalTokens := 0
  eventQueue := 1024
  maxBatchSize := 2
  same := fun _ _ => true
  request := fun i => {
    stream := i
    promptIds := [1]
    maxTokens := 2
    temperature := .finite 0
    options := {
      topP := none
      topK := none
      minP := none
      frequencyPenalty := some (.finite 0)
      presencePenalty := some (.finite 0)
      repetitionPenalty := some (.finite 1)
      seed := none
      logprobs := false
      topLogprobs := none }
    stop := .other ()
    n := 1
    thinkingMode := .chat }

open PocketMoE.Serving.Engine in
/-- The collector has taken the stream's request when `close` puts the sentinel, puts it back
behind the sentinel, and the worker exits. -/
lemma streamAndPlain_lost : ∃ trace, ∃ last : State Bool Unit,
    Run (Step streamAndPlain) Engine.init trace last ∧ last.worker = .exited ∧
      true ∈ last.accepted ∧ true ∉ last.outcomes.map Prod.fst := by
  have waits : 0 < max 0 streamAndPlain.batchWaitMs := by decide +kernel
  have run : Run (Step streamAndPlain) (Engine.init : State Bool Unit) _ _ :=
    .cons (.check (i := false) rfl) <| .cons (.accept (i := false) rfl rfl) <|
    .cons (.check (i := true) rfl) <| .cons (.accept (i := true) rfl rfl) <|
    .cons (.take rfl rfl) <| .cons (.collect rfl (by decide) waits rfl) <|
    .cons (.testClosed (k := ()) rfl) <| .cons (.setClosed (k := ()) rfl) <|
    .cons (.putSentinel (k := ()) rfl) <| .cons (.requeue rfl rfl) <|
    .cons (@Step.finish _ _ _ _ _ _ _ [false] .result rfl rfl) <| .cons (.take rfl rfl) <| .nil _
  exact ⟨_, _, run, rfl, by decide, by decide⟩

open PocketMoE.Serving.Engine in
theorem delivered_iff_lost : ∃ trace, ∃ last : State Bool Unit,
    Run (Step streamAndPlain) Engine.init trace last ∧
      (Meets (Orderly streamAndPlain) trace ↔
        Throughout (Delivered streamAndPlain) trace last) := by
  obtain ⟨trace, last, run, _⟩ := streamAndPlain_lost
  exact ⟨trace, last, run, delivered_iff streamAndPlain run⟩

open PocketMoE.Serving.Engine in
/-- The stream's request is accepted, and never ends. -/
theorem not_delivered_lost : ¬ ∀ trace, ∀ last : State Bool Unit,
    Run (Step streamAndPlain) Engine.init trace last →
      Throughout (Delivered streamAndPlain) trace last := by
  intro claim
  obtain ⟨trace, last, run, exited, accepted, lost⟩ := streamAndPlain_lost
  exact lost ((claim trace last run).2.ended exited true accepted)

end PocketMoE.Serving
