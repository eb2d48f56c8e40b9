import Mathlib.Algebra.Order.Ring.Int
import Mathlib.Logic.Function.Basic
import PocketMoE.Lib.Trans

/-!
# The header of the CPU-MoE server

`CPUMoESharedMemory` (`components/moe/ipc.py`) keeps two sequence numbers, a layer and a stop mark
in a header that clients, the server and whoever stops it read and write without a lock. Every
operation loads all four fields, and some store them back. A step is a single load or store of one
field, so that any two operations may interleave.

`lawful_iff`: no stop is lost and no sequence number goes back exactly when every store is fresh. A
submit clears the stop mark whatever it is; all other bad stores put a value back that somebody has
overwritten since it was loaded.
-/

namespace PocketMoE.Runtime.SharedHeader
open PocketMoE.Lib

/-- The fields of the header, in their order. -/
inductive Field where
  | requestSeq
  | responseSeq
  | layerId
  | stop
deriving DecidableEq

/-- The values of the fields. -/
abbrev Header := Field → Int

/-- The operations on the header. `stop` is `_InProcessCPUMoEServer.stop`. -/
inductive Op where
  | submit (layerId : Int)
  | waitResponse (seq : Int)
  | waitRequest (lastSeq : Int)
  | respond (seq : Int)
  | stop

namespace Op

/-- The fields that an operation stores after its loads, in their order. -/
def stores : Op → List Field
  | .submit _ => [.responseSeq, .layerId, .stop, .requestSeq]
  | .waitResponse _ => []
  | .waitRequest _ => []
  | .respond _ => [.requestSeq, .layerId, .stop, .responseSeq]
  | .stop => [.requestSeq, .responseSeq, .layerId, .stop]

/-- What an operation stores into a field, when it has loaded `regs`. -/
def value (regs : Header) : Op → Field → Int
  | .submit _, .requestSeq => regs .requestSeq + 1
  | .submit layerId, .layerId => layerId
  | .submit _, .stop => 0
  | .respond seq, .responseSeq => seq
  | .stop, .stop => 1
  | _, field => regs field

end Op

/-- An operation under way: the fields it still has to load, what it has loaded, and the fields it
still has to store. -/
structure Thread where
  op : Op
  loads : List Field
  regs : Header
  stores : List Field

/-- An operation that begins, or a wait that looks again. -/
def Op.start (op : Op) : Thread where
  op := op
  loads := [.requestSeq, .responseSeq, .layerId, .stop]
  regs := fun _ => 0
  stores := op.stores

/-- The server, a client, or one who stops the server. -/
inductive Party (γ κ : Type*) where
  | server
  | client (i : γ)
  | stopper (k : κ)
deriving DecidableEq

/-- Where the server is in its loop. -/
inductive Server where
  | waiting (lastSeq : Int)
  | serving (seq : Int)
  | stopped
deriving DecidableEq

/-- The header and the parties; whether a stop is pending, that is stored and not yet observed by
all who wait; and the highest value that each field has had. -/
structure State (γ κ : Type*) where
  header : Header
  thread : Party γ κ → Option Thread
  server : Server
  pending : Prop
  high : Header

/-- What a step does. -/
inductive Event (γ κ : Type*) where
  | start (p : Party γ κ) (op : Op)
  | load (p : Party γ κ)
  | store (p : Party γ κ)
  | finish (p : Party γ κ)

namespace State

variable {γ κ : Type*}

/-- The header as it is created. -/
def created : Header
  | .layerId => -1
  | _ => 0

/-- The memory has been created, and nobody has used it. -/
def init : State γ κ where
  header := created
  thread := fun _ => none
  server := .waiting 0
  pending := False
  high := created

/-- The server or a waiting client has not observed a stop. -/
def Unaware (s : State γ κ) : Prop :=
  s.server ≠ .stopped ∨
    ∃ i t seq, s.thread (.client i) = some t ∧ t.op = .waitResponse seq

/-- A stop is not pending any more when all have observed it. -/
def settle (s : State γ κ) : State γ κ :=
  { s with pending := s.pending ∧ s.Unaware }

/-- Who calls which operation. -/
def Calls (s : State γ κ) : Party γ κ → Op → Prop
  | .server, .waitRequest lastSeq => s.server = .waiting lastSeq
  | .server, .respond seq => s.server = .serving seq
  | .client _, .submit _ => True
  | .client _, .waitResponse _ => True
  | .stopper _, .stop => True
  | _, _ => False

variable [DecidableEq γ] [DecidableEq κ]

/-- A party goes on with an operation, or ends it. -/
def move (s : State γ κ) (p : Party γ κ) (t : Option Thread) : State γ κ :=
  { s with thread := Function.update s.thread p t }

/-- A party stores the field `f`. -/
def store (s : State γ κ) (p : Party γ κ) (t : Thread) (f : Field) (rest : List Field) :
    State γ κ :=
  { s.move p (some { t with stores := rest }) with
    header := Function.update s.header f (t.op.value t.regs f)
    pending := s.pending ∨ (t.op = .stop ∧ f = .stop)
    high := Function.update s.high f (max (s.high f) (t.op.value t.regs f)) }

/-- The end of an operation: a wait looks again if it has found nothing. -/
def finish (s : State γ κ) (p : Party γ κ) (t : Thread) : State γ κ :=
  match t.op with
  | .waitResponse seq =>
    if t.regs .stop ≠ 0 ∨ seq ≤ t.regs .responseSeq then s.move p none
    else s.move p (some t.op.start)
  | .waitRequest lastSeq =>
    if t.regs .stop ≠ 0 then { s.move p none with server := .stopped }
    else if lastSeq < t.regs .requestSeq then
      { s.move p none with server := .serving (t.regs .requestSeq) }
    else s.move p (some t.op.start)
  | .respond seq => { s.move p none with server := .waiting seq }
  | _ => s.move p none

end State

section Runs

variable {γ κ : Type*} [DecidableEq γ] [DecidableEq κ]

/-- One load or store, or the begin or end of an operation. -/
inductive Step : State γ κ → Event γ κ → State γ κ → Prop where
  | start {s : State γ κ} (p : Party γ κ) (op : Op) : s.thread p = none → s.Calls p op →
    Step s (.start p op) (s.move p (some op.start)).settle
  | load {s : State γ κ} {p : Party γ κ} {t : Thread} {f : Field} {rest : List Field} :
    s.thread p = some t → t.loads = f :: rest →
    Step s (.load p) (s.move p (some
      { t with loads := rest, regs := Function.update t.regs f (s.header f) })).settle
  | store {s : State γ κ} {p : Party γ κ} {t : Thread} {f : Field} {rest : List Field} :
    s.thread p = some t → t.loads = [] → t.stores = f :: rest →
    Step s (.store p) (s.store p t f rest).settle
  | finish {s : State γ κ} {p : Party γ κ} {t : Thread} :
    s.thread p = some t → t.loads = [] → t.stores = [] →
    Step s (.finish p) (s.finish p t).settle

/-- A pending stop stands in the header, and the sequence numbers are the highest so far. -/
structure Lawful (s : State γ κ) : Prop where
  stop : s.pending → s.header .stop ≠ 0
  request : s.header .requestSeq = s.high .requestSeq
  response : s.header .responseSeq = s.high .responseSeq

/-- What an operation stores does not undo what others have stored since it has loaded the header:
a sequence number that it puts back stands there still, a new one is not behind, and it neither
clears a pending stop nor puts back a mark from before it. -/
def FreshStore (s : State γ κ) (t : Thread) : Op → Field → Prop
  | .submit _, .requestSeq => s.header .requestSeq ≤ t.regs .requestSeq + 1
  | .submit _, .stop => ¬ s.pending
  | .respond seq, .responseSeq => s.header .responseSeq ≤ seq
  | .stop, .stop => True
  | _, .requestSeq => t.regs .requestSeq = s.header .requestSeq
  | _, .responseSeq => t.regs .responseSeq = s.header .responseSeq
  | _, .layerId => True
  | _, .stop => s.pending → t.regs .stop ≠ 0

/-- Every store is fresh. -/
def Fresh (s : State γ κ) : Event γ κ → Prop
  | .store p => ∀ t f rest, s.thread p = some t → t.stores = f :: rest → FreshStore s t t.op f
  | _ => True

/-- What all runs keep: nothing is above the highest values, and a pending stop has not been
observed by somebody. -/
structure Bounded (s : State γ κ) : Prop where
  header : ∀ f, s.header f ≤ s.high f
  regs : ∀ p t, s.thread p = some t → ∀ f, f ∉ t.loads → t.regs f ≤ s.high f
  unaware : s.pending → s.Unaware

variable {s s' : State γ κ} {e : Event γ κ} {p : Party γ κ} {t t' : Thread}

section Fields

omit [DecidableEq γ] [DecidableEq κ]

@[simp] lemma State.settle_header : s.settle.header = s.header := rfl

@[simp] lemma State.settle_high : s.settle.high = s.high := rfl

@[simp] lemma State.settle_thread : s.settle.thread = s.thread := rfl

end Fields

@[simp] lemma State.move_header (m : Option Thread) : (s.move p m).header = s.header := rfl

@[simp] lemma State.move_high (m : Option Thread) : (s.move p m).high = s.high := rfl

lemma State.finish_header : (s.finish p t).header = s.header ∧ (s.finish p t).high = s.high ∧
    (s.finish p t).pending = s.pending := by
  unfold finish
  split <;> try split_ifs
  all_goals exact ⟨rfl, rfl, rfl⟩

lemma State.finish_thread : (s.finish p t).thread = Function.update s.thread p none ∨
    (s.finish p t).thread = Function.update s.thread p (some t.op.start) := by
  unfold finish
  split <;> try split_ifs
  all_goals first | exact Or.inl rfl | exact Or.inr rfl

omit [DecidableEq γ] [DecidableEq κ] in
lemma Bounded.init : Bounded (State.init : State γ κ) where
  header := fun _ => le_refl _
  regs := fun _ _ here => absurd here (by simp [State.init])
  unaware := fun pending => pending.elim

lemma Bounded.regs_update (bounded : Bounded s) {high : Header} (grows : ∀ f, s.high f ≤ high f)
    {moved : Option Thread} (moves : ∀ t, moved = some t → ∀ f, f ∉ t.loads → t.regs f ≤ high f)
    (q : Party γ κ) (t : Thread) (here : Function.update s.thread p moved q = some t) (f : Field)
    (loaded : f ∉ t.loads) : t.regs f ≤ high f := by
  by_cases same : q = p
  · subst same
    rw [Function.update_self] at here
    exact moves t here f loaded
  · rw [Function.update_of_ne same] at here
    exact (bounded.regs q t here f loaded).trans (grows f)

lemma Op.start_loads (op : Op) (f : Field) : f ∈ op.start.loads := by
  cases f <;> simp [Op.start]

lemma Bounded.step (bounded : Bounded s) (st : Step s e s') : Bounded s' := by
  have unaware : s'.pending → s'.Unaware := by
    cases st <;> exact fun pending => pending.2
  cases st with
  | start p op idle calls =>
    refine ⟨bounded.header, bounded.regs_update (fun _ => le_refl _) ?_, unaware⟩
    rintro t ⟨⟩ f loaded
    exact absurd (Op.start_loads _ f) loaded
  | @load p t g rest here loads =>
    refine ⟨bounded.header, bounded.regs_update (fun _ => le_refl _) ?_, unaware⟩
    rintro _ ⟨⟩ f loaded
    by_cases same : f = g
    · subst same
      simpa using bounded.header f
    · have before : f ∉ t.loads := by simp [loads, same, loaded]
      simpa [Function.update_of_ne same] using bounded.regs p t here f before
  | @store p t g rest here loads stores =>
    have grows : ∀ f, s.high f ≤ (s.store p t g rest).high f := by
      refine (Function.forall_update_iff s.high fun f v => s.high f ≤ v).mpr ⟨?_, ?_⟩
      · exact le_max_left _ _
      · exact fun _ _ => le_refl _
    refine ⟨fun f => ?_, bounded.regs_update grows ?_, unaware⟩
    · by_cases same : f = g
      · subst same
        simp [State.store]
      · simpa [State.store, same] using bounded.header f
    · rintro _ ⟨⟩ f loaded
      exact (bounded.regs p t here f loaded).trans (grows f)
  | @finish p t here loads stores =>
    obtain ⟨header, high, _⟩ := State.finish_header (s := s) (p := p) (t := t)
    refine ⟨fun f => ?_, fun q u there f loaded => ?_, unaware⟩
    · simpa [header, high] using bounded.header f
    · simp only [State.settle_high, high]
      simp only [State.settle_thread] at there
      rcases State.finish_thread (s := s) (p := p) (t := t) with eq | eq
      · rw [eq] at there
        exact bounded.regs_update (fun _ => le_refl _) (by simp) q u there f loaded
      · rw [eq] at there
        refine bounded.regs_update (fun _ => le_refl _) ?_ q u there f loaded
        rintro _ ⟨⟩ g before
        exact absurd (Op.start_loads _ g) before

omit [DecidableEq γ] [DecidableEq κ] in
lemma Lawful.init : Lawful (State.init : State γ κ) := ⟨fun pending => pending.elim, rfl, rfl⟩

lemma State.unaware_store {f : Field} {rest : List Field} (here : s.thread p = some t)
    (unaware : s.Unaware) : (s.store p t f rest).Unaware := by
  rcases unaware with server | ⟨i, u, seq, there, waits⟩
  · exact Or.inl server
  · by_cases same : Party.client i = p
    · subst same
      obtain rfl : t = u := Option.some_inj.mp (here.symm.trans there)
      exact Or.inr ⟨i, _, seq, Function.update_self .., waits⟩
    · exact Or.inr ⟨i, u, seq, (Function.update_of_ne same _ _).trans there, waits⟩

lemma lawful_store_seq {f : Field} {rest : List Field} (lawful : Lawful s)
    (field : f = .requestSeq ∨ f = .responseSeq) :
    Lawful (s.store p t f rest).settle ↔ s.header f ≤ t.op.value t.regs f := by
  obtain ⟨stop, request, response⟩ := lawful
  rcases field with rfl | rfl
  · refine ⟨fun after => ?_, fun ahead => ⟨fun pending => ?_, ?_, response⟩⟩
    · have same := after.request
      simp only [State.store, State.settle, Function.update_self] at same
      omega
    · rcases pending.1 with before | ⟨_, differs⟩
      · exact stop before
      · cases differs
    · simp only [State.store, State.settle, Function.update_self]
      omega
  · refine ⟨fun after => ?_, fun ahead => ⟨fun pending => ?_, request, ?_⟩⟩
    · have same := after.response
      simp only [State.store, State.settle, Function.update_self] at same
      omega
    · rcases pending.1 with before | ⟨_, differs⟩
      · exact stop before
      · cases differs
    · simp only [State.store, State.settle, Function.update_self]
      omega

lemma lawful_store_stop {rest : List Field} (lawful : Lawful s) (bounded : Bounded s)
    (here : s.thread p = some t) (setsStop : t.op = .stop → t.op.value t.regs .stop ≠ 0) :
    Lawful (s.store p t .stop rest).settle ↔ (s.pending → t.op.value t.regs .stop ≠ 0) := by
  constructor
  · intro after pending
    have stands := after.stop
      ⟨Or.inl pending, State.unaware_store here (bounded.unaware pending)⟩
    simpa [State.store] using stands
  · refine fun stands => ⟨fun pending => ?_, lawful.request, lawful.response⟩
    simp only [State.store, State.settle, Function.update_self]
    rcases pending.1 with before | ⟨isStop, _⟩
    · exact stands before
    · exact setsStop isStop

lemma lawful_store_layer {rest : List Field} (lawful : Lawful s) :
    Lawful (s.store p t .layerId rest).settle := by
  refine ⟨fun pending => ?_, lawful.request, lawful.response⟩
  rcases pending.1 with before | ⟨_, differs⟩
  · exact lawful.stop before
  · cases differs

lemma freshStore_iff {f : Field} {rest : List Field} (lawful : Lawful s) (bounded : Bounded s)
    (here : s.thread p = some t) (loads : t.loads = []) :
    FreshStore s t t.op f ↔ Lawful (s.store p t f rest).settle := by
  have loaded : ∀ f, t.regs f ≤ s.high f := fun f =>
    bounded.regs p t here f (by simp [loads])
  cases f with
  | requestSeq =>
    rw [lawful_store_seq lawful (Or.inl rfl)]
    have le := (loaded .requestSeq).trans_eq lawful.request.symm
    cases t.op with
    | submit layerId => exact Iff.rfl
    | _ => exact ⟨fun same => same.ge, fun ge => le_antisymm le ge⟩
  | responseSeq =>
    rw [lawful_store_seq lawful (Or.inr rfl)]
    have le := (loaded .responseSeq).trans_eq lawful.response.symm
    cases t.op with
    | respond seq => exact Iff.rfl
    | _ => exact ⟨fun same => same.ge, fun ge => le_antisymm le ge⟩
  | layerId =>
    refine iff_of_true ?_ (lawful_store_layer lawful)
    cases t.op <;> trivial
  | stop =>
    rw [lawful_store_stop lawful bounded here (by intro eq; simp [eq, Op.value])]
    cases t.op with
    | submit layerId =>
      exact ⟨fun none pending => absurd pending none, fun set pending => set pending rfl⟩
    | stop => exact iff_of_true trivial fun _ => Int.one_ne_zero
    | _ => exact Iff.rfl

lemma Lawful.step (lawful : Lawful s) (bounded : Bounded s) (st : Step s e s')
    (fresh : Fresh s e) : Lawful s' := by
  cases st with
  | store here loads stores =>
    exact (freshStore_iff lawful bounded here loads).mp (fresh _ _ _ here stores)
  | start p op idle calls =>
    exact ⟨fun pending => lawful.stop pending.1, lawful.request, lawful.response⟩
  | load here loads =>
    exact ⟨fun pending => lawful.stop pending.1, lawful.request, lawful.response⟩
  | @finish p t here loads stores =>
    obtain ⟨header, high, pending⟩ := State.finish_header (s := s) (p := p) (t := t)
    refine ⟨fun still => ?_, ?_, ?_⟩
    · simpa [header] using lawful.stop (pending.mp still.1)
    · simpa [header, high] using lawful.request
    · simpa [header, high] using lawful.response

lemma Lawful.fresh (lawful : Lawful s) (bounded : Bounded s) (st : Step s e s')
    (after : Lawful s') : Fresh s e := by
  cases st with
  | store here loads stores =>
    intro t f rest there next
    obtain rfl := Option.some_inj.mp (here.symm.trans there)
    obtain ⟨rfl, rfl⟩ := List.cons.inj (stores.symm.trans next)
    exact (freshStore_iff lawful bounded here loads).mpr after
  | _ => trivial

/-- In every run, a stop stays set until the server and all waiting clients have observed it, and
no sequence number decreases, exactly when every store of the run is fresh. -/
theorem lawful_iff {trace : List (State γ κ × Event γ κ)} {last : State γ κ}
    (run : Run Step State.init trace last) : Throughout Lawful trace last ↔ Meets Fresh trace := by
  constructor
  · intro lawful
    have bounded : Throughout Bounded trace last :=
      run.invariant (C := fun _ _ => True) Bounded.init (fun bounded _ st => bounded.step st)
        fun _ _ => trivial
    exact run.meets (fun before st after => before.1.fresh before.2 st after.1)
      (lawful.and bounded)
  · intro fresh
    have both : Throughout (fun s => Lawful s ∧ Bounded s) trace last :=
      run.invariant ⟨Lawful.init, Bounded.init⟩
        (fun before fresh st => ⟨before.1.step before.2 st fresh, before.2.step st⟩) fresh
    exact both.imp And.left

end Runs

/-! ## A stop that is cleared, a request that is taken back -/

lemma stop_cleared : ∃ trace, ∃ last : State Unit Unit,
    Run Step State.init trace last ∧ last.pending ∧ last.header .stop = 0 := by
  have run : Run Step (State.init : State Unit Unit) _ _ :=
    .cons (.start (.stopper ()) .stop rfl trivial) <|
    .cons (.load (p := .stopper ()) rfl rfl) <| .cons (.load (p := .stopper ()) rfl rfl) <|
    .cons (.load (p := .stopper ()) rfl rfl) <| .cons (.load (p := .stopper ()) rfl rfl) <|
    .cons (.store (p := .stopper ()) rfl rfl rfl) <|
    .cons (.store (p := .stopper ()) rfl rfl rfl) <|
    .cons (.store (p := .stopper ()) rfl rfl rfl) <|
    .cons (.store (p := .stopper ()) rfl rfl rfl) <|
    .cons (.finish (p := .stopper ()) rfl rfl rfl) <|
    .cons (.start (.client ()) (.submit 0) rfl trivial) <|
    .cons (.load (p := .client ()) rfl rfl) <| .cons (.load (p := .client ()) rfl rfl) <|
    .cons (.load (p := .client ()) rfl rfl) <| .cons (.load (p := .client ()) rfl rfl) <|
    .cons (.store (p := .client ()) rfl rfl rfl) <|
    .cons (.store (p := .client ()) rfl rfl rfl) <|
    .cons (.store (p := .client ()) rfl rfl rfl) <|
    .nil _
  refine ⟨_, _, run, ?_, rfl⟩
  -- the server has not looked, so no step has settled the stop
  simp [State.settle, State.store, State.move, State.Unaware, State.init, State.finish, Op.start,
    Op.stores]

lemma request_taken_back : ∃ trace, ∃ last : State Unit Unit,
    Run Step State.init trace last ∧ last.header .requestSeq = 0 ∧ last.high .requestSeq = 1 := by
  have run : Run Step (State.init : State Unit Unit) _ _ :=
    .cons (.start (.stopper ()) .stop rfl trivial) <|
    .cons (.load (p := .stopper ()) rfl rfl) <| .cons (.load (p := .stopper ()) rfl rfl) <|
    .cons (.load (p := .stopper ()) rfl rfl) <| .cons (.load (p := .stopper ()) rfl rfl) <|
    .cons (.start (.client ()) (.submit 0) rfl trivial) <|
    .cons (.load (p := .client ()) rfl rfl) <| .cons (.load (p := .client ()) rfl rfl) <|
    .cons (.load (p := .client ()) rfl rfl) <| .cons (.load (p := .client ()) rfl rfl) <|
    .cons (.store (p := .client ()) rfl rfl rfl) <|
    .cons (.store (p := .client ()) rfl rfl rfl) <|
    .cons (.store (p := .client ()) rfl rfl rfl) <|
    .cons (.store (p := .client ()) rfl rfl rfl) <|
    .cons (.store (p := .stopper ()) rfl rfl rfl) <|
    .nil _
  exact ⟨_, _, run, rfl, rfl⟩

theorem lawful_iff_cleared : ∃ trace, ∃ last : State Unit Unit,
    Run Step State.init trace last ∧ (Throughout Lawful trace last ↔ Meets Fresh trace) := by
  obtain ⟨trace, last, run, _⟩ := stop_cleared
  exact ⟨trace, last, run, lawful_iff run⟩

/-- Neither is a stop kept, nor a sequence number. -/
theorem not_lawful_interleaved :
    (¬ ∀ trace, ∀ last : State Unit Unit, Run Step State.init trace last →
      last.pending → last.header .stop ≠ 0) ∧
    (¬ ∀ trace, ∀ last : State Unit Unit, Run Step State.init trace last →
      last.header .requestSeq = last.high .requestSeq) := by
  refine ⟨fun claim => ?_, fun claim => ?_⟩
  · obtain ⟨trace, last, run, pending, cleared⟩ := stop_cleared
    exact claim trace last run pending cleared
  · obtain ⟨trace, last, run, low, high⟩ := request_taken_back
    have same := claim trace last run
    rw [low, high] at same
    exact absurd same (by decide)

end PocketMoE.Runtime.SharedHeader
