import Mathlib.Algebra.Order.Ring.Unbundled.Rat
import Mathlib.Data.List.Nodup
import Mathlib.Data.List.ReduceOption
import Mathlib.Data.Rat.Defs
import Mathlib.Logic.Function.Basic
import PocketMoE.Lib.Trans

/-!
# The serving engine

`DeepSeekServingEngine` (`src/server/engine.py`): handler threads put requests on a bounded queue,
one worker thread takes them off, alone or collected into batches, and `close` puts a sentinel
behind them. A step of `Step` is one action of one thread on the queue, on the closed flag or on
the outcome of a request; what the model computes for a request is left open.

* `Payload` is what admission and the compatibility test read of a request.
* `Engine` holds the settings of the constructor; `State` the queue (`none` is the sentinel), the
  flag, how far every thread is, and the history of acceptances, starts and outcomes.
* `Conserved` is what every reachable state has: an accepted request is in exactly one place.
-/

namespace PocketMoE.Serving
open PocketMoE.Lib

/-- A float of a request's body, up to the sign of zero. -/
inductive Number where
  | finite (q : ℚ)
  | infinity (negative : Bool)
  | nan
deriving DecidableEq

namespace Number

/-- The comparison of floats: `nan` differs from everything. -/
def same : Number → Number → Bool
  | .finite a, .finite b => a == b
  | .infinity a, .infinity b => a == b
  | _, _ => false

lemma eq_of_same {a b : Number} (eq : a.same b = true) : a = b := by
  cases a with
  | finite q =>
    cases b with
    | finite q' => exact congrArg finite (eq_of_beq eq)
    | _ => cases eq
  | infinity s =>
    cases b with
    | infinity s' => exact congrArg infinity (eq_of_beq eq)
    | _ => cases eq
  | nan => cases eq

/-- The comparison of values that `dict.get` may not find. -/
def sameOption : Option Number → Option Number → Bool
  | none, none => true
  | some a, some b => a.same b
  | _, _ => false

lemma eq_of_sameOption {a b : Option Number} (eq : sameOption a b = true) : a = b := by
  cases a with
  | none =>
    cases b with
    | none => rfl
    | some b => cases eq
  | some a =>
    cases b with
    | none => cases eq
    | some b => exact congrArg some (eq_of_same eq)

end Number

/-- The field `stop` of a body: a text, a list, or a value without texts. -/
inductive Stop (J : Type*) where
  | text (s : String)
  | items (list : List (String ⊕ J))
  | other (value : J)

namespace Stop

variable {J : Type*}

/-- The stop texts, as `_stop_strings` reads them. -/
def strings : Stop J → List String
  | .text s => [s]
  | .items list => list.filterMap fun item => item.getLeft?.filter (· ≠ "")
  | .other _ => []

/-- The comparison of two items of a list. -/
def sameItem (same : J → J → Bool) : String ⊕ J → String ⊕ J → Bool
  | .inl a, .inl b => a == b
  | .inr a, .inr b => same a b
  | _, _ => false

/-- The comparison of lists: item by item. -/
def sameItems (same : J → J → Bool) : List (String ⊕ J) → List (String ⊕ J) → Bool
  | [], [] => true
  | a :: as, b :: bs => sameItem same a b && sameItems same as bs
  | _, _ => false

/-- The comparison of two values, given the comparison of those without texts. -/
def same (sameOther : J → J → Bool) : Stop J → Stop J → Bool
  | .text a, .text b => a == b
  | .items a, .items b => sameItems sameOther a b
  | .other a, .other b => sameOther a b
  | _, _ => false

variable {sameOther : J → J → Bool}

lemma strings_of_sameItems {a b : List (String ⊕ J)} (eq : sameItems sameOther a b = true) :
    (Stop.items a).strings = (Stop.items b).strings := by
  induction a generalizing b with
  | nil =>
    cases b with
    | nil => rfl
    | cons y ys => cases eq
  | cons x xs ih =>
    cases b with
    | nil => cases eq
    | cons y ys =>
      obtain ⟨here, rest⟩ := Bool.and_eq_true_iff.mp eq
      have tail := ih rest
      simp only [strings] at tail ⊢
      have head : x.getLeft? = y.getLeft? := by
        cases x with
        | inl s =>
          cases y with
          | inl t => exact congrArg some (eq_of_beq here)
          | inr v => cases here
        | inr v =>
          cases y with
          | inl t => cases here
          | inr w => rfl
      rw [List.filterMap_cons, List.filterMap_cons, head, tail]

lemma strings_of_same {a b : Stop J} (eq : a.same sameOther b = true) : a.strings = b.strings := by
  cases a with
  | text s =>
    cases b with
    | text t => exact congrArg (fun s => [s]) (eq_of_beq eq)
    | _ => cases eq
  | items as =>
    cases b with
    | items bs => exact strings_of_sameItems eq
    | _ => cases eq
  | other v =>
    cases b with
    | other w => rfl
    | _ => cases eq

end Stop

/-- The options that `_make_payload` hands to the generation loop. -/
@[ext]
structure GenerationOptions where
  topP : Option Number
  topK : Option Int
  minP : Option Number
  frequencyPenalty : Option Number
  presencePenalty : Option Number
  repetitionPenalty : Option Number
  seed : Option Int
  logprobs : Bool
  topLogprobs : Option Int
deriving DecidableEq

/-- What `_thinking_config` makes of a body. -/
inductive ThinkingMode where
  | chat
  | thinking
deriving DecidableEq

/-- A request of the queue. -/
structure Payload (J : Type*) where
  stream : Bool
  promptIds : List Nat
  maxTokens : Int
  temperature : Number
  options : GenerationOptions
  stop : Stop J
  n : Nat
  thinkingMode : ThinkingMode

/-- The settings of `DeepSeekServingEngine.__init__`, the model's batch size (one if there is no
model), and the comparison of JSON values without texts. -/
structure Engine (J ι : Type*) where
  maxQueue : Int
  maxRunningRequests : Int
  batchWaitMs : ℚ
  maxTotalTokens : Int
  eventQueue : Int
  maxBatchSize : Int
  same : J → J → Bool
  request : ι → Payload J

/-- What a request ends with: its result or its exception, or the mark at the end of its stream. -/
inductive Outcome where
  | result
  | exception
  | ended
  | raised
deriving DecidableEq

/-- The outcome is one of a stream. -/
def Outcome.ofStream : Outcome → Bool
  | .result => false
  | .exception => false
  | .ended => true
  | .raised => true

/-- How far the handler of a request is in `_enqueue`. -/
inductive Client where
  | arrived
  | checked
  | accepted
  | rejected (message : String)
deriving DecidableEq

/-- How far a thread is in `close`. -/
inductive Closer where
  | called
  | tested
  | flagged
  | returned
deriving DecidableEq

/-- Where the worker is in `_run`. `putBack` is the second half of a round of `_collect_batch` that
took an item which does not belong to the batch. -/
inductive Worker (ι : Type*) where
  | waiting
  | streaming (i : ι)
  | collecting (first : ι) (others : List ι)
  | putBack (first : ι) (others : List ι) (item : Option ι)
  | running (batch : List ι)
  | exited

namespace Worker

variable {ι : Type*}

/-- The requests the worker has taken and not finished. -/
def inHand : Worker ι → List ι
  | .waiting => []
  | .streaming i => [i]
  | .collecting first others => first :: others
  | .putBack first others item => first :: others ++ item.toList
  | .running batch => batch
  | .exited => []

/-- The item that is about to be put back. -/
def returns : Worker ι → List (Option ι)
  | .putBack _ _ item => [item]
  | _ => []

/-- The requests the worker runs or will run without putting them back. -/
def keeps : Worker ι → List ι
  | .putBack first others _ => first :: others
  | worker => worker.inHand

end Worker

/-- The queue, the flag and the threads; and the history: the accepted requests, the started ones
and the outcomes, each in order. `events` counts what a stream's client has not read yet. -/
structure State (ι κ : Type*) where
  queue : List (Option ι)
  closed : Bool
  worker : Worker ι
  client : ι → Client
  closer : κ → Closer
  events : ι → Nat
  accepted : List ι
  started : List ι
  outcomes : List (ι × Outcome)

/-- What a step does. -/
inductive Event (ι κ : Type*) where
  | check (i : ι)
  | put (i : ι)
  | read (i : ι)
  | testClosed (k : κ)
  | setClosed (k : κ)
  | putSentinel (k : κ)
  | take
  | emit
  | endStream (outcome : Outcome)
  | collect
  | stopCollecting
  | requeue
  | finish (outcome : Outcome)

/-- The step is the worker's, or a client's that reads its stream. -/
def Event.ofWorker {ι κ : Type*} : Event ι κ → Bool
  | .check _ => false
  | .put _ => false
  | .testClosed _ => false
  | .setClosed _ => false
  | .putSentinel _ => false
  | _ => true

namespace Engine

variable {J ι κ : Type*}

/-- `max(1, int(...))` of the constructor. -/
def maxRunning (engine : Engine J ι) : Int :=
  max 1 engine.maxRunningRequests

/-- `queue.full` of a bounded queue; a bound that is not positive is none. -/
def full (bound : Int) (size : Nat) : Bool :=
  0 < bound && bound ≤ size

/-- `_admit`: the message of the exception, if it raises one. -/
def admitError (engine : Engine J ι) (payload : Payload J) : Option String :=
  let totalTokens := payload.promptIds.length + payload.maxTokens
  let maxTotal := engine.maxTotalTokens
  let maxRunning := engine.maxRunning
  let maxBatch := engine.maxBatchSize
  if maxTotal > 0 && totalTokens > maxTotal then
    some s!"request token budget {totalTokens} exceeds DEEPSEEK_SERVING_MAX_TOTAL_TOKENS={maxTotal}"
  else if maxRunning > 1 && maxRunning > maxBatch then
    some s!"DEEPSEEK_SERVING_MAX_RUNNING_REQUESTS={maxRunning} exceeds model max_batch_size={maxBatch}"
  else none

/-- `_is_batch_compatible`. -/
def isBatchCompatible (engine : Engine J ι) (first candidate : Payload J) : Bool :=
  !candidate.stream && first.maxTokens == candidate.maxTokens &&
    first.temperature.same candidate.temperature &&
    Number.sameOption first.options.topP candidate.options.topP &&
    first.options.topK == candidate.options.topK &&
    Number.sameOption first.options.minP candidate.options.minP &&
    Number.sameOption first.options.frequencyPenalty candidate.options.frequencyPenalty &&
    Number.sameOption first.options.presencePenalty candidate.options.presencePenalty &&
    Number.sameOption first.options.repetitionPenalty candidate.options.repetitionPenalty &&
    first.options.seed == candidate.options.seed &&
    first.stop.same engine.same candidate.stop &&
    first.options.logprobs == candidate.options.logprobs &&
    first.options.topLogprobs == candidate.options.topLogprobs &&
    first.n == candidate.n

/-- The collector's test of an item: the candidate does not go into the batch. -/
def refuses (engine : Engine J ι) (first candidate : ι) : Bool :=
  (engine.request candidate).stream ||
    !engine.isBatchCompatible (engine.request first) (engine.request candidate)

/-- What `_enqueue` does before it puts the request. -/
def afterCheck (engine : Engine J ι) (closed : Bool) (i : ι) : Client :=
  if closed then .rejected "serving engine is closed"
  else match engine.admitError (engine.request i) with
    | some message => .rejected message
    | none => .checked

/-- Where the worker goes with an item it took: a request that streams runs at once, others may
wait for a batch. -/
def afterTake (engine : Engine J ι) : Option ι → Worker ι
  | none => .exited
  | some i =>
    if (engine.request i).stream then .streaming i
    else if engine.maxRunning > 1 then .collecting i []
    else .running [i]

/-- Where the collector goes with an item it took. -/
def afterCollect (engine : Engine J ι) (first : ι) (others : List ι) : Option ι → Worker ι
  | none => .putBack first others none
  | some i =>
    if engine.refuses first i then .putBack first others (some i)
    else .collecting first (others ++ [i])

/-- The kind of the requests the worker has taken. -/
def WorkerKind (engine : Engine J ι) : Worker ι → Prop
  | .streaming i => (engine.request i).stream = true
  | worker => ∀ i ∈ worker.keeps, (engine.request i).stream = false

lemma afterTake_inHand (engine : Engine J ι) (item : Option ι) :
    (engine.afterTake item).inHand = item.toList := by
  cases item with
  | none => rfl
  | some i =>
    simp only [afterTake]
    split_ifs
    · rfl
    · rfl
    · rfl

lemma afterTake_kind (engine : Engine J ι) (item : Option ι) :
    engine.WorkerKind (engine.afterTake item) := by
  cases item with
  | none => exact fun _ member => absurd member List.not_mem_nil
  | some i =>
    simp only [afterTake]
    split_ifs with streams
    · exact streams
    · intro j member
      rw [List.mem_singleton.mp member]
      exact Bool.eq_false_iff.mpr streams
    · intro j member
      rw [List.mem_singleton.mp member]
      exact Bool.eq_false_iff.mpr streams

lemma afterCollect_inHand (engine : Engine J ι) (first : ι) (others : List ι) (item : Option ι) :
    (engine.afterCollect first others item).inHand = first :: others ++ item.toList := by
  cases item with
  | none => rfl
  | some i =>
    simp only [afterCollect]
    split_ifs
    · rfl
    · rfl

lemma afterCollect_kind {engine : Engine J ι} {first : ι} {others : List ι} (item : Option ι)
    (kind : engine.WorkerKind (.collecting first others)) :
    engine.WorkerKind (engine.afterCollect first others item) := by
  cases item with
  | none => exact kind
  | some i =>
    simp only [afterCollect]
    split_ifs with refused
    · exact kind
    · intro j member
      have member' : j ∈ (first :: others) ++ [i] := member
      rcases List.mem_append.mp member' with old | new
      · exact kind j old
      · rw [List.mem_singleton.mp new]
        exact (Bool.or_eq_false_iff.mp (Bool.eq_false_iff.mpr refused)).1

/-- No request has been submitted, and nobody has called `close`. -/
def init : State ι κ where
  queue := []
  closed := false
  worker := .waiting
  client := fun _ => .arrived
  closer := fun _ => .called
  events := fun _ => 0
  accepted := []
  started := []
  outcomes := []

variable [DecidableEq ι] [DecidableEq κ]

/-- One step of one thread. -/
inductive Step (engine : Engine J ι) : State ι κ → Event ι κ → State ι κ → Prop where
  /-- `_enqueue` tests the flag, without a lock, and admits the request. -/
  | check {s : State ι κ} {i : ι} : s.client i = .arrived →
    Step engine s (.check i)
      { s with client := Function.update s.client i (engine.afterCheck s.closed i) }
  | accept {s : State ι κ} {i : ι} : s.client i = .checked →
    full engine.maxQueue s.queue.length = false →
    Step engine s (.put i)
      { s with
        queue := s.queue ++ [some i]
        client := Function.update s.client i .accepted
        accepted := s.accepted ++ [i] }
  | reject {s : State ι κ} {i : ι} : s.client i = .checked →
    full engine.maxQueue s.queue.length = true →
    Step engine s (.put i)
      { s with client := Function.update s.client i (.rejected "serving request queue is full") }
  /-- A client takes an event of its stream. -/
  | read {s : State ι κ} {i : ι} {rest : Nat} : s.events i = rest + 1 →
    Step engine s (.read i) { s with events := Function.update s.events i rest }
  /-- `close` tests the flag. -/
  | testClosed {s : State ι κ} {k : κ} : s.closer k = .called →
    Step engine s (.testClosed k)
      { s with closer := Function.update s.closer k (if s.closed then .returned else .tested) }
  | setClosed {s : State ι κ} {k : κ} : s.closer k = .tested →
    Step engine s (.setClosed k)
      { s with closed := true, closer := Function.update s.closer k .flagged }
  /-- The sentinel is dropped if there is no place for it. -/
  | putSentinel {s : State ι κ} {k : κ} : s.closer k = .flagged →
    Step engine s (.putSentinel k)
      { s with
        queue := if full engine.maxQueue s.queue.length then s.queue else s.queue ++ [none]
        closer := Function.update s.closer k .returned }
  /-- The worker takes the next item of the queue. -/
  | take {s : State ι κ} {item : Option ι} {rest : List (Option ι)} : s.worker = .waiting →
    s.queue = item :: rest →
    Step engine s .take
      { s with queue := rest, worker := engine.afterTake item, started := s.started ++ item.toList }
  /-- The worker puts an event of a stream, and waits while there is no place for it. -/
  | emit {s : State ι κ} {i : ι} : s.worker = .streaming i →
    full engine.eventQueue (s.events i) = false →
    Step engine s .emit { s with events := Function.update s.events i (s.events i + 1) }
  /-- `close_events`, or `set_exception` of a stream. -/
  | endStream {s : State ι κ} {i : ι} {outcome : Outcome} : s.worker = .streaming i →
    full engine.eventQueue (s.events i) = false → outcome.ofStream = true →
    Step engine s (.endStream outcome)
      { s with
        worker := .waiting
        events := Function.update s.events i (s.events i + 1)
        outcomes := s.outcomes ++ [(i, outcome)] }
  /-- A round of `_collect_batch` that gets an item before the deadline. -/
  | collect {s : State ι κ} {first : ι} {others : List ι} {item : Option ι}
    {rest : List (Option ι)} : s.worker = .collecting first others →
    ((others.length + 1 : Nat) : Int) < engine.maxRunning → 0 < max 0 engine.batchWaitMs →
    s.queue = item :: rest →
    Step engine s .collect
      { s with
        queue := rest
        worker := engine.afterCollect first others item
        started := s.started ++ (item.filter fun i => !engine.refuses first i).toList }
  /-- The batch is complete, or the deadline has passed. -/
  | stopCollecting {s : State ι κ} {first : ι} {others : List ι} :
    s.worker = .collecting first others →
    Step engine s .stopCollecting { s with worker := .running (first :: others) }
  /-- The item goes back to the end of the queue, which the worker waits for if it is full. -/
  | requeue {s : State ι κ} {first : ι} {others : List ι} {item : Option ι} :
    s.worker = .putBack first others item → full engine.maxQueue s.queue.length = false →
    Step engine s .requeue
      { s with queue := s.queue ++ [item], worker := .running (first :: others) }
  /-- All requests of the batch get their results, or all get the exception. -/
  | finish {s : State ι κ} {batch : List ι} {outcome : Outcome} : s.worker = .running batch →
    outcome.ofStream = false →
    Step engine s (.finish outcome)
      { s with
        worker := .waiting
        outcomes := s.outcomes ++ batch.map fun i => (i, outcome) }

/-- What every reachable state has: a request is accepted once, and an accepted request has had
its outcome, is with the worker or is in the queue, and is in one of these places only. -/
structure Conserved (engine : Engine J ι) (s : State ι κ) : Prop where
  nodup : s.accepted.Nodup
  places : s.accepted.Perm
    (s.outcomes.map Prod.fst ++ (s.worker.inHand ++ s.queue.reduceOption))
  clients : ∀ i ∈ s.accepted, s.client i = .accepted
  kinds : ∀ x ∈ s.outcomes, x.2.ofStream = (engine.request x.1).stream
  hand : engine.WorkerKind s.worker

variable {engine : Engine J ι} {s : State ι κ} {i : ι}

omit [DecidableEq ι] [DecidableEq κ] in
lemma Conserved.init : Conserved engine (Engine.init : State ι κ) where
  nodup := List.nodup_nil
  places := List.Perm.refl _
  clients := fun _ member => absurd member List.not_mem_nil
  kinds := fun _ member => absurd member List.not_mem_nil
  hand := fun _ member => absurd member List.not_mem_nil

omit [DecidableEq ι] [DecidableEq κ] in
lemma Conserved.fresh (conserved : Conserved engine s) (other : s.client i ≠ .accepted) :
    i ∉ s.accepted :=
  fun member => other (conserved.clients i member)

omit [DecidableEq κ] in
lemma Conserved.clients_move (conserved : Conserved engine s) (other : s.client i ≠ .accepted)
    (pc : Client) : ∀ j ∈ s.accepted, Function.update s.client i pc j = .accepted := by
  intro j member
  have ne : j ≠ i := fun eq => conserved.fresh other (eq ▸ member)
  rw [Function.update_of_ne ne]
  exact conserved.clients j member

omit [DecidableEq κ] in
lemma Conserved.quiet (conserved : Conserved engine s) (other : s.client i ≠ .accepted)
    (pc : Client) : Conserved engine { s with client := Function.update s.client i pc } where
  nodup := conserved.nodup
  places := conserved.places
  clients := conserved.clients_move other pc
  kinds := conserved.kinds
  hand := conserved.hand

omit [DecidableEq κ] in
lemma Conserved.accept (conserved : Conserved engine s) (here : s.client i = .checked) :
    Conserved engine { s with
      queue := s.queue ++ [some i]
      client := Function.update s.client i .accepted
      accepted := s.accepted ++ [i] } := by
  have other : s.client i ≠ .accepted := by
    rw [here]
    exact fun no => by cases no
  have new := conserved.fresh other
  refine ⟨?_, ?_, ?_, conserved.kinds, conserved.hand⟩
  · exact List.nodup_append.mpr ⟨conserved.nodup, List.nodup_singleton i,
      fun a old b last eq => new (List.mem_singleton.mp last ▸ eq ▸ old)⟩
  · have places := conserved.places.append_right [i]
    simpa [List.reduceOption_append] using places
  · intro j member
    rcases List.mem_append.mp member with old | last
    · exact conserved.clients_move other .accepted j old
    · rw [List.mem_singleton.mp last]
      exact Function.update_self ..

omit [DecidableEq ι] [DecidableEq κ] in
lemma Conserved.work (conserved : Conserved engine s) {queue : List (Option ι)}
    {worker : Worker ι} {events : ι → Nat} {started : List ι} {outcomes : List (ι × Outcome)}
    (places : (s.outcomes.map Prod.fst ++ (s.worker.inHand ++ s.queue.reduceOption)).Perm
      (outcomes.map Prod.fst ++ (worker.inHand ++ queue.reduceOption)))
    (kinds : ∀ x ∈ outcomes, x.2.ofStream = (engine.request x.1).stream)
    (hand : engine.WorkerKind worker) :
    Conserved engine { s with
      queue := queue
      worker := worker
      events := events
      started := started
      outcomes := outcomes } where
  nodup := conserved.nodup
  places := conserved.places.trans places
  clients := conserved.clients
  kinds := kinds
  hand := hand

lemma Conserved.step (conserved : Conserved engine s) {e : Event ι κ} {s' : State ι κ}
    (st : Step engine s e s') : Conserved engine s' := by
  cases st with
  | check here => exact conserved.quiet (by rw [here]; exact fun no => by cases no) _
  | accept here room => exact conserved.accept here
  | reject here full => exact conserved.quiet (by rw [here]; exact fun no => by cases no) _
  | read some => exact ⟨conserved.nodup, conserved.places, conserved.clients, conserved.kinds,
      conserved.hand⟩
  | testClosed here => exact ⟨conserved.nodup, conserved.places, conserved.clients,
      conserved.kinds, conserved.hand⟩
  | setClosed here => exact ⟨conserved.nodup, conserved.places, conserved.clients,
      conserved.kinds, conserved.hand⟩
  | putSentinel here =>
    refine ⟨conserved.nodup, ?_, conserved.clients, conserved.kinds, conserved.hand⟩
    have places := conserved.places
    split_ifs
    · exact places
    · simpa [List.reduceOption_append] using places
  | @take item rest here queue =>
    refine conserved.work ?_ conserved.kinds (afterTake_kind engine item)
    rw [afterTake_inHand, here, queue]
    cases item with
    | none => exact List.Perm.refl _
    | some i => exact List.Perm.refl _
  | emit here room => exact conserved.work (List.Perm.refl _) conserved.kinds conserved.hand
  | @endStream i outcome here room streams =>
    have kind := conserved.hand
    rw [here] at kind
    refine conserved.work ?_ ?_ fun _ member => absurd member List.not_mem_nil
    · rw [here]
      simp [Worker.inHand]
    · intro x member
      rcases List.mem_append.mp member with old | last
      · exact conserved.kinds x old
      · rw [List.mem_singleton.mp last]
        exact streams.trans kind.symm
  | @collect first others item rest here fewer waits queue =>
    have kind := conserved.hand
    rw [here] at kind
    refine conserved.work ?_ conserved.kinds (afterCollect_kind item kind)
    rw [afterCollect_inHand, here, queue]
    cases item with
    | none => simp [Worker.inHand]
    | some i => simp [Worker.inHand]
  | stopCollecting here =>
    have kind := conserved.hand
    rw [here] at kind
    refine conserved.work ?_ conserved.kinds kind
    rw [here]
    exact List.Perm.refl _
  | @requeue first others item here room =>
    have kind := conserved.hand
    rw [here] at kind
    refine conserved.work ?_ conserved.kinds kind
    rw [here, List.reduceOption_append, Worker.inHand, Worker.inHand, List.append_assoc]
    have swap : (item.toList ++ s.queue.reduceOption).Perm
        (s.queue.reduceOption ++ [item].reduceOption) := by
      cases item with
      | none => simp
      | some i => exact List.perm_append_comm
    exact (swap.append_left _).append_left _
  | @finish batch outcome here plain =>
    have kind := conserved.hand
    rw [here] at kind
    refine conserved.work ?_ ?_ fun _ member => absurd member List.not_mem_nil
    · rw [here]
      simp [Worker.inHand, Function.comp_def]
    · intro x member
      rcases List.mem_append.mp member with old | last
      · exact conserved.kinds x old
      · obtain ⟨i, ran, rfl⟩ := List.mem_map.mp last
        exact plain.trans (kind i ran).symm

/-! ## What the worker runs together -/

/-- The other requests of a batch are compatible with its first one. -/
def Compatible (engine : Engine J ι) (first : ι) (others : List ι) : Prop :=
  ∀ i ∈ others, engine.isBatchCompatible (engine.request first) (engine.request i) = true

/-- The worker collects and runs compatible requests only. -/
def Batched (engine : Engine J ι) : Worker ι → Prop
  | .collecting first others => engine.Compatible first others
  | .putBack first others _ => engine.Compatible first others
  | .running batch => ∃ first others, batch = first :: others ∧ engine.Compatible first others
  | _ => True

omit [DecidableEq ι] [DecidableEq κ] in
lemma Compatible.none (engine : Engine J ι) (first : ι) : engine.Compatible first [] :=
  fun _ member => absurd member List.not_mem_nil

omit [DecidableEq ι] [DecidableEq κ] in
lemma batched_afterTake (engine : Engine J ι) (item : Option ι) :
    engine.Batched (engine.afterTake item) := by
  cases item with
  | none => trivial
  | some i =>
    simp only [afterTake]
    split_ifs
    · trivial
    · exact Compatible.none engine i
    · exact ⟨i, [], rfl, Compatible.none engine i⟩

omit [DecidableEq ι] [DecidableEq κ] in
lemma batched_afterCollect {first : ι} {others : List ι} (item : Option ι)
    (compatible : engine.Compatible first others) :
    engine.Batched (engine.afterCollect first others item) := by
  cases item with
  | none => exact compatible
  | some i =>
    simp only [afterCollect]
    split_ifs with refused
    · exact compatible
    · refine List.forall_mem_append.mpr ⟨compatible, List.forall_mem_singleton.mpr ?_⟩
      have joins := (Bool.or_eq_false_iff.mp (Bool.eq_false_iff.mpr refused)).2
      exact (Bool.not_eq_false' _).mp joins

lemma Batched.step (batched : engine.Batched s.worker) {e : Event ι κ} {s' : State ι κ}
    (st : Step engine s e s') : engine.Batched s'.worker := by
  cases st with
  | take => exact batched_afterTake engine _
  | collect here =>
    rw [here] at batched
    exact batched_afterCollect _ batched
  | stopCollecting here =>
    rw [here] at batched
    exact ⟨_, _, rfl, batched⟩
  | requeue here =>
    rw [here] at batched
    exact ⟨_, _, rfl, batched⟩
  | endStream => trivial
  | finish => trivial
  | check => exact batched
  | accept => exact batched
  | reject => exact batched
  | read => exact batched
  | testClosed => exact batched
  | setClosed => exact batched
  | putSentinel => exact batched
  | emit => exact batched

/-- In every run, what the worker runs is one request and others that are compatible with it. -/
theorem batched_run {trace : List (State ι κ × Event ι κ)} {last : State ι κ}
    (run : Run (Step engine) init trace last) :
    Throughout (fun s => engine.Batched s.worker) trace last :=
  run.invariant (C := fun _ _ => True) trivial (fun batched _ st => Batched.step batched st)
    fun _ _ => trivial

end Engine

end PocketMoE.Serving
