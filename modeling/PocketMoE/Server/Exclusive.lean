import Mathlib.Algebra.GroupWithZero.Nat
import PocketMoE.Lib.Trans
import PocketMoE.Server.Chat

/-!
# One session at a time

In a run every session has the engine for itself exactly when no session begins while another one
is open and one of the two is a stream's (`exclusive_iff`). That sessions of handlers never overlap
is what the mutex gives; the provider of a stream runs without it.

The invariant `Inv` adds to `Exclusive` who may hold the mutex, that a session in a provider is a
stream's, and what the log says of requests that have not begun or have a session open. All steps
but the engine calls and exceptions are instances of `Inv.quiet`.
-/

namespace PocketMoE.Server
open PocketMoE.Lib

namespace Pc

variable {Tok : Type*}

/-- The request has not called the engine, and may still do so. -/
def mayBegin : Pc Tok → Bool
  | .arrived => true
  | .waiting => true
  | .locked => true
  | .registered => true
  | .session _ .start => true
  | _ => false

lemma afterSession_mayBegin (inProvider : Bool) (response : Option (List Tok)) :
    (afterSession inProvider response).mayBegin = false := by
  cases inProvider with
  | true => rfl
  | false => rfl

end Pc

namespace OpenAIServer

variable {S Tok SP ι : Type*} [DecidableEq Tok] [DecidableEq ι]

/-- The engine serves one session at a time: at most one is open, nobody calls the engine between
two calls of a session, and every response is that of an uninterrupted run of its own request. -/
structure Exclusive (server : OpenAIServer S Tok SP ι) (s : State S Tok ι) : Prop where
  one : ∀ i j, (s.pc i).isOpen = true → (s.pc j).isOpen = true → i = j
  calls : Uninterrupted (s.log.map Prod.fst)
  answers : ∀ i tokens, (s.pc i).response = some tokens →
    ∃ engine, tokens = generate server.engine (server.request i) engine

/-- No session begins while another one is open and one of the two is a stream's. -/
def NoStreamOverlap (server : OpenAIServer S Tok SP ι) (s : State S Tok ι) : Event ι → Prop
  | .call i => (s.pc i).begins = true → ∀ j, j ≠ i → (s.pc j).isOpen = true →
      (server.request i).stream = false ∧ (server.request j).stream = false
  | _ => True

/-- A request's own part of the invariant. A session is on its way to the tokens of an
uninterrupted run. -/
def Sound (server : OpenAIServer S Tok SP ι) (engine : S) (i : ι) : Pc Tok → Prop
  | .session inProvider σ => inProvider = (server.request i).stream ∧
      Session.Live (server.request i) σ ∧
      ∃ begun, outcome server.engine (server.request i) engine σ =
        generate server.engine (server.request i) begun
  | .registered => (server.request i).stream = true
  | .replied response => ∀ tokens, response = some tokens →
      ∃ begun, tokens = generate server.engine (server.request i) begun
  | .done response => ∀ tokens, response = some tokens →
      ∃ begun, tokens = generate server.engine (server.request i) begun
  | _ => True

/-- What every state of a run without stream overlap satisfies. -/
structure Inv (server : OpenAIServer S Tok SP ι) (s : State S Tok ι) : Prop where
  one : ∀ i j, (s.pc i).isOpen = true → (s.pc j).isOpen = true → i = j
  calls : Uninterrupted (s.log.map Prod.fst)
  sound : ∀ i, Sound server s.engine i (s.pc i)
  locks : ∀ i, (s.pc i).holdsLock = true → s.inflight = some i
  fresh : ∀ i, (s.pc i).mayBegin = true → i ∉ s.log.map Prod.fst
  last : ∀ i, (s.pc i).isOpen = true → (s.log.map Prod.fst).getLast? = some i

variable {server : OpenAIServer S Tok SP ι} {s : State S Tok ι} {i : ι}

omit [DecidableEq ι] in
lemma Inv.init (engine : S) : Inv server (OpenAIServer.init engine) where
  one := fun _ _ isOpen => by cases isOpen
  calls := Uninterrupted.nil
  sound := fun _ => trivial
  locks := fun _ holds => by cases holds
  fresh := fun _ _ => List.not_mem_nil
  last := fun _ isOpen => by cases isOpen

omit [DecidableEq ι] in
lemma Sound.answer {engine : S} {pc : Pc Tok} (sound : Sound server engine i pc)
    {tokens : List Tok} (eq : pc.response = some tokens) :
    ∃ begun, tokens = generate server.engine (server.request i) begun := by
  cases pc with
  | replied response => exact sound tokens eq
  | done response => exact sound tokens eq
  | _ => cases eq

omit [DecidableEq ι] in
lemma Sound.closed {engine : S} {pc : Pc Tok} (sound : Sound server engine i pc)
    (closed : pc.isOpen = false) (engine' : S) : Sound server engine' i pc := by
  cases pc with
  | session inProvider σ =>
    obtain ⟨flag, live, begun, eq⟩ := sound
    cases σ with
    | start => exact ⟨flag, live, engine', rfl⟩
    | cleared => cases closed
    | running token step generated => cases closed
    | finished generated => exact ⟨flag, live, begun, eq⟩
  | replied response => exact sound
  | done response => exact sound
  | registered => exact sound
  | _ => trivial

omit [DecidableEq ι] in
lemma Sound.afterSession {engine : S} {inProvider : Bool} {response : Option (List Tok)}
    (answer : ∀ tokens, response = some tokens →
      ∃ begun, tokens = generate server.engine (server.request i) begun) :
    Sound server engine i (.afterSession inProvider response) := by
  cases inProvider with
  | true => exact answer
  | false => exact answer

lemma Inv.locks_move (inv : Inv server s) {pc : Pc Tok}
    (keeps : pc.holdsLock = true → (s.pc i).holdsLock = true) :
    ∀ j, (Function.update s.pc i pc j).holdsLock = true → s.inflight = some j := by
  refine (Function.forall_update_iff s.pc fun j pc => pc.holdsLock = true → _).mpr ⟨?_, ?_⟩
  · exact fun holds => inv.locks i (keeps holds)
  · exact fun j _ holds => inv.locks j holds

lemma Inv.locks_release (inv : Inv server s) (held : (s.pc i).holdsLock = true) {pc : Pc Tok}
    (free : pc.holdsLock = false) :
    ∀ j, (Function.update s.pc i pc j).holdsLock = true → none = some j := by
  refine (Function.forall_update_iff s.pc fun j pc => pc.holdsLock = true → _).mpr ⟨?_, ?_⟩
  · intro holds
    rw [free] at holds
    cases holds
  · intro j ne holds
    have same := (inv.locks j holds).symm.trans (inv.locks i held)
    exact absurd (Option.some_inj.mp same) ne

lemma Inv.quiet (inv : Inv server s) {pc : Pc Tok} {inflight : Option ι}
    (sound : Sound server s.engine i pc) (closed : pc.isOpen = false)
    (fresh : pc.mayBegin = true → (s.pc i).mayBegin = true)
    (locks : ∀ j, (Function.update s.pc i pc j).holdsLock = true → inflight = some j) :
    Inv server { move s i pc with inflight := inflight } := by
  have others : ∀ j, (Function.update s.pc i pc j).isOpen = true → (s.pc j).isOpen = true := by
    refine (Function.forall_update_iff s.pc fun j pc => pc.isOpen = true → _).mpr ⟨?_, ?_⟩
    · intro isOpen
      rw [closed] at isOpen
      cases isOpen
    · exact fun j _ isOpen => isOpen
  refine ⟨?_, inv.calls, ?_, locks, ?_, ?_⟩
  · exact fun j k first second => inv.one j k (others j first) (others k second)
  · exact (Function.forall_update_iff s.pc fun j pc => Sound server s.engine j pc).mpr
      ⟨sound, fun j _ => inv.sound j⟩
  · refine (Function.forall_update_iff s.pc fun j pc => pc.mayBegin = true → _).mpr ⟨?_, ?_⟩
    · exact fun may => inv.fresh i (fresh may)
    · exact fun j _ may => inv.fresh j may
  · exact fun j isOpen => inv.last j (others j isOpen)

lemma Inv.call (inv : Inv server s) {inProvider : Bool} {σ σ' : Session Tok} {call : Call}
    {engine' : S} (here : s.pc i = .session inProvider σ)
    (called : engineCall server.engine (server.request i) s.engine σ = some (call, engine', σ'))
    (alone : ∀ j, j ≠ i → (s.pc j).isOpen = false) :
    Inv server { move s i (.session inProvider σ') with
      engine := engine', log := s.log ++ [(i, call)] } := by
  have owners : (s.log ++ [(i, call)]).map Prod.fst = s.log.map Prod.fst ++ [i] := by simp
  have only : ∀ j, (Function.update s.pc i (.session inProvider σ') j).isOpen = true → j = i := by
    refine (Function.forall_update_iff s.pc fun j pc => pc.isOpen = true → j = i).mpr ⟨?_, ?_⟩
    · exact fun _ => rfl
    · intro j ne isOpen
      rw [alone j ne] at isOpen
      cases isOpen
  refine ⟨?_, ?_, ?_, ?_, ?_, ?_⟩
  · exact fun j k first second => (only j first).trans (only k second).symm
  · show Uninterrupted ((s.log ++ [(i, call)]).map Prod.fst)
    rw [owners]
    cases engineCall_open called with
    | inl start =>
      subst start
      exact inv.calls.append_new (inv.fresh i (by rw [here]; rfl))
    | inr running => exact inv.calls.append_last (inv.last i (by rw [here]; exact running))
  · refine (Function.forall_update_iff s.pc fun j pc => Sound server engine' j pc).mpr ⟨?_, ?_⟩
    · have sound := inv.sound i
      rw [here] at sound
      obtain ⟨flag, live, begun, eq⟩ := sound
      exact ⟨flag, engineCall_live called, begun, (engineCall_outcome live called).trans eq⟩
    · exact fun j ne => (inv.sound j).closed (alone j ne) engine'
  · exact inv.locks_move fun holds => by rw [here]; exact holds
  · show ∀ j, _ → j ∉ (s.log ++ [(i, call)]).map Prod.fst
    rw [owners]
    refine (Function.forall_update_iff s.pc fun j pc => pc.mayBegin = true → _).mpr ⟨?_, ?_⟩
    · intro may
      -- after a call the session is past its start
      cases σ' with
      | start => exact absurd rfl (engineCall_begun called)
      | cleared => cases may
      | running token step generated => cases may
      | finished generated => cases may
    · intro j ne may member
      rcases List.mem_append.mp member with old | new
      · exact inv.fresh j may old
      · exact ne (List.mem_singleton.mp new)
  · intro j isOpen
    show ((s.log ++ [(i, call)]).map Prod.fst).getLast? = some j
    rw [owners, only j isOpen, List.getLast?_concat]

lemma Inv.fail (inv : Inv server s) {inProvider : Bool} {σ : Session Tok} (engine' : S)
    (here : s.pc i = .session inProvider σ) :
    Inv server { move s i (.afterSession inProvider none) with
      engine := if σ.inProgress then engine' else s.engine } := by
  have isOver : Sound server s.engine i (.afterSession inProvider none) :=
    Sound.afterSession fun _ eq => by cases eq
  have quiet := inv.quiet isOver (Pc.afterSession_isOpen inProvider none)
    (fun may => by rw [Pc.afterSession_mayBegin] at may; cases may)
    (inv.locks_move fun holds => by
      rw [here]
      exact (Pc.afterSession_holdsLock inProvider none).symm.trans holds)
  refine ⟨quiet.one, quiet.calls, ?_, quiet.locks, quiet.fresh, quiet.last⟩
  intro j
  have sound := quiet.sound j
  cases running : σ.inProgress with
  | false => exact sound
  | true =>
    refine sound.closed ?_ engine'
    -- the failed session was the open one
    cases isOpen : (Function.update s.pc i (.afterSession inProvider none) j).isOpen with
    | false => exact isOpen
    | true =>
      rcases eq_or_ne j i with rfl | ne
      · rw [Function.update_self, Pc.afterSession_isOpen] at isOpen
        cases isOpen
      · rw [Function.update_of_ne ne] at isOpen
        exact absurd (inv.one j i isOpen (by rw [here]; exact running)) ne

omit [DecidableEq ι] in
lemma Inv.alone (inv : Inv server s) (apart : NoStreamOverlap server s (.call i))
    {inProvider : Bool} {σ : Session Tok} (here : s.pc i = .session inProvider σ)
    (goes : σ = .start ∨ σ.inProgress = true) (j : ι) (ne : j ≠ i) :
    (s.pc j).isOpen = false := by
  cases isOpen : (s.pc j).isOpen with
  | false => rfl
  | true =>
    exfalso
    cases goes with
    | inr running => exact ne (inv.one j i isOpen (by rw [here]; exact running))
    | inl start =>
      subst start
      obtain ⟨plain, plain'⟩ := apart (by rw [here]; rfl) j ne isOpen
      have sound := inv.sound i
      have sound' := inv.sound j
      cases other : s.pc j with
      | session inProvider' σ' =>
        rw [here] at sound
        rw [other] at sound'
        -- both run in their handlers, under the mutex
        have holds := inv.locks i (by rw [here, sound.1, plain]; rfl)
        have holds' := inv.locks j (by rw [other, sound'.1, plain']; rfl)
        exact ne (Option.some_inj.mp (holds'.symm.trans holds))
      | _ =>
        rw [other] at isOpen
        cases isOpen

lemma Inv.step (inv : Inv server s) {e : Event ι} {s' : State S Tok ι}
    (apart : NoStreamOverlap server s e) (st : Step server s e s') : Inv server s' := by
  cases st with
  | @encode i ok here =>
    cases ok with
    | true =>
      exact inv.quiet trivial rfl (fun _ => by rw [here]; rfl) (inv.locks_move fun no => by cases no)
    | false =>
      exact inv.quiet (fun _ eq => by cases eq) rfl (fun no => by cases no)
        (inv.locks_move fun no => by cases no)
  | @acquire i here free =>
    refine inv.quiet trivial rfl (fun _ => by rw [here]; rfl) ?_
    refine (Function.forall_update_iff s.pc fun j pc => pc.holdsLock = true → _).mpr ⟨?_, ?_⟩
    · exact fun _ => rfl
    · intro j _ holds
      have held := inv.locks j holds
      rw [free] at held
      cases held
  | @check i here =>
    have had : (s.pc i).holdsLock = true := by rw [here]; rfl
    have locks : ∀ j, (Function.update s.pc i (server.afterCheck i) j).holdsLock = true →
        s.inflight = some j := inv.locks_move fun _ => had
    unfold afterCheck at locks ⊢
    by_cases long : ((server.request i).tokenIds.length : Int) + (server.request i).maxTokens >
      server.engine.maxContext
    · simp only [long, if_true] at locks ⊢
      exact inv.quiet (fun _ eq => by cases eq) rfl (fun no => by cases no) locks
    · simp only [long, if_false] at locks ⊢
      cases streams : (server.request i).stream with
      | true =>
        simp only [streams, if_true] at locks ⊢
        exact inv.quiet streams rfl (fun _ => by rw [here]; rfl) locks
      | false =>
        simp only [streams] at locks ⊢
        exact inv.quiet ⟨streams.symm, trivial, s.engine, rfl⟩ rfl (fun _ => by rw [here]; rfl) locks
  | @call i inProvider σ call engine' σ' here called =>
    exact inv.call here called (inv.alone apart here (engineCall_open called))
  | @reply i inProvider generated here =>
    have sound := inv.sound i
    rw [here] at sound
    obtain ⟨flag, live, begun, eq⟩ := sound
    refine inv.quiet (Sound.afterSession fun tokens same => ⟨begun, ?_⟩)
      (Pc.afterSession_isOpen _ _) (fun may => ?_) (inv.locks_move fun holds => ?_)
    · exact (Option.some_inj.mp same).symm.trans eq
    · rw [Pc.afterSession_mayBegin] at may
      cases may
    · rw [here]
      exact (Pc.afterSession_holdsLock inProvider _).symm.trans holds
  | @fail i inProvider σ engine' here => exact inv.fail engine' here
  | @release i response here =>
    have sound := inv.sound i
    rw [here] at sound
    exact inv.quiet sound rfl (fun no => by cases no)
      (inv.locks_release (by rw [here]; rfl) rfl)
  | @releaseStream i here =>
    have sound := inv.sound i
    rw [here] at sound
    exact inv.quiet ⟨sound.symm, trivial, s.engine, rfl⟩ rfl (fun _ => by rw [here]; rfl)
      (inv.locks_release (by rw [here]; rfl) rfl)

omit [DecidableEq ι] in
lemma Inv.exclusive (inv : Inv server s) : Exclusive server s where
  one := inv.one
  calls := inv.calls
  answers := fun i _ eq => (inv.sound i).answer eq

lemma Exclusive.apart {e : Event ι} {s' : State S Tok ι} (st : Step server s e s')
    (exclusive : Exclusive server s') : NoStreamOverlap server s e := by
  cases st with
  | @call i inProvider σ call engine' σ' here called =>
    intro begins j ne isOpen
    cases σ with
    | start =>
      cases called
      have mine : (Function.update s.pc i (.session inProvider .cleared) i).isOpen = true := by
        rw [Function.update_self]
        rfl
      have other : (Function.update s.pc i (.session inProvider .cleared) j).isOpen = true := by
        rw [Function.update_of_ne ne]
        exact isOpen
      exact absurd (exclusive.one j i other mine) ne
    | _ =>
      rw [here] at begins
      cases begins
  | _ => trivial

/-- For any requests, any engine and any interleaving: the sessions of a run have the engine for
themselves exactly when none begins while another is open and one of the two is a stream's. -/
theorem exclusive_iff (server : OpenAIServer S Tok SP ι) (engine : S)
    {trace : List (State S Tok ι × Event ι)} {last : State S Tok ι}
    (run : Run (Step server) (init engine) trace last) :
    Meets (NoStreamOverlap server) trace ↔ Throughout (Exclusive server) trace last := by
  constructor
  · intro apart
    have all := run.invariant (Inv.init engine) (fun inv here st => Inv.step inv here st) apart
    exact all.imp Inv.exclusive
  · exact run.meets fun _ st exclusive => Exclusive.apart st exclusive

end OpenAIServer

/-! ## A stream and a plain request -/

/-- An engine whose cache is the tokens it was fed, and whose next token is their sum. -/
def sumEngine : PersistentEngine (List Nat) Nat Unit where
  maxContext := 8
  eosId := 0
  resetSession := fun _ => []
  prefill := fun cache tokenIds _ => ((cache ++ tokenIds).sum, cache ++ tokenIds)
  decodeStep := fun cache token _ _ => ((cache ++ [token]).sum, cache ++ [token])

/-- Two requests for two tokens each; `true` streams. -/
def twoRequests : OpenAIServer (List Nat) Nat Unit Bool where
  engine := sumEngine
  request := fun i => {
    tokenIds := if i then [1] else [2]
    maxTokens := 2
    stream := i
    sp := () }

open OpenAIServer in
/-- The plain request takes the mutex while the provider decodes, and the stream's second token is
computed in the cache of the plain request. -/
lemma twoRequests_mixed : ∃ trace last, Run (Step twoRequests) (init []) trace last ∧
    (last.pc true).response = some [1, 3] := by
  have run : Run (Step twoRequests) (init []) _ _ :=
    .cons (.encode (i := true) true rfl) <| .cons (.acquire (i := true) rfl rfl) <|
    .cons (.check (i := true) rfl) <| .cons (.releaseStream (i := true) rfl) <|
    .cons (.call (i := true) rfl rfl) <| .cons (.call (i := true) rfl rfl) <|
    .cons (.encode (i := false) true rfl) <| .cons (.acquire (i := false) rfl rfl) <|
    .cons (.check (i := false) rfl) <|
    .cons (.call (i := false) rfl rfl) <| .cons (.call (i := false) rfl rfl) <|
    .cons (.call (i := true) rfl rfl) <| .cons (.reply (i := true) rfl) <| .nil _
  exact ⟨_, _, run, rfl⟩

open OpenAIServer in
theorem exclusive_iff_mixed : ∃ trace last, Run (Step twoRequests) (init []) trace last ∧
    (Meets (NoStreamOverlap twoRequests) trace ↔
      Throughout (Exclusive twoRequests) trace last) := by
  obtain ⟨trace, last, run, _⟩ := twoRequests_mixed
  exact ⟨trace, last, run, exclusive_iff twoRequests [] run⟩

open OpenAIServer in
/-- The mixed tokens are those of no uninterrupted run of the stream's request. -/
theorem not_exclusive_mixed : ¬ ∀ trace last, Run (Step twoRequests) (init []) trace last →
    Throughout (Exclusive twoRequests) trace last := by
  intro claim
  obtain ⟨trace, last, run, mixed⟩ := twoRequests_mixed
  obtain ⟨begun, eq⟩ := (claim trace last run).2.answers true [1, 3] mixed
  have alone : generate sumEngine (twoRequests.request true) begun = [1, 2] := rfl
  exact absurd (eq.trans alone) (by decide)

end PocketMoE.Server
