import Mathlib.Data.List.Basic
import Mathlib.Logic.Function.Basic
import Mathlib.Tactic.Lemma

/-!
# The chat server and its single engine

Model of the request handling of `openai_server.cpp` (lines 235 to 418). Any number of requests is
handled at once, each by a thread of its own, and all use one `PersistentEngine`. A handler encodes
its request, takes the mutex `inflight`, checks the length, and either runs the session itself
(`handle_nonstream`) or registers a content provider (`handle_stream`) and returns. Returning gives
the mutex back: the provider runs the same session later, without it.

`Step` is one step of one request; a session calls the engine once in a step (`engineCall`), which
includes the command to the worker ranks. The log of engine calls is not in the source, it only
records what has happened.

`generate` is what a session returns that has the engine for itself, and `outcome` what one returns
that has it from here on: a call leaves the outcome as it is (`engineCall_outcome`).
-/

namespace PocketMoE.Server

/-- The engine's interface: a state that every call changes, and the tokens it returns. -/
structure PersistentEngine (S Tok SP : Type*) where
  maxContext : Int
  eosId : Tok
  resetSession : S → S
  prefill : S → List Tok → SP → Tok × S
  decodeStep : S → Tok → Int → SP → Tok × S

/-- A request as `encode_request` returns it. -/
structure ChatRequest (Tok SP : Type*) where
  tokenIds : List Tok
  maxTokens : Int
  stream : Bool
  sp : SP

/-- Where a session stands: what it has called, and with `running` the token that is fed next. -/
inductive Session (Tok : Type*) where
  | start
  | cleared
  | running (token : Tok) (step : Nat) (generated : List Tok)
  | finished (generated : List Tok)
deriving DecidableEq

/-- The engine calls of a session. -/
inductive Call where
  | reset
  | prefill
  | decodeStep
deriving DecidableEq

namespace Session

variable {Tok : Type*}

/-- Between the reset and the last call. -/
def inProgress : Session Tok → Bool
  | .cleared => true
  | .running _ _ _ => true
  | .start => false
  | .finished _ => false

end Session

section Sessions

variable {S Tok SP : Type*} [DecidableEq Tok]

/-- What a session does with a returned token: stop at the end token, else keep it, and decode
again while `step < max_tokens`. -/
def afterToken (engine : PersistentEngine S Tok SP) (r : ChatRequest Tok SP) (token : Tok)
    (step : Nat) (generated : List Tok) : Session Tok :=
  if token = engine.eosId then .finished generated
  else if (step : Int) < r.maxTokens then .running token step (generated ++ [token])
  else .finished (generated ++ [token])

/-- The next engine call of a session, in `handle_nonstream` and in the provider alike. -/
def engineCall (engine : PersistentEngine S Tok SP) (r : ChatRequest Tok SP) (s : S) :
    Session Tok → Option (Call × S × Session Tok)
  | .start => some (.reset, engine.resetSession s, .cleared)
  | .cleared =>
    let (token, s') := engine.prefill s r.tokenIds r.sp
    some (.prefill, s', afterToken engine r token 1 [])
  | .running token step generated =>
    let position : Int := r.tokenIds.length
    let (token', s') := engine.decodeStep s token (position + step - 1) r.sp
    some (.decodeStep, s', afterToken engine r token' (step + 1) generated)
  | .finished _ => none

/-- The decode loop with the engine to itself: at most `left` more tokens. -/
def decodeLoop (engine : PersistentEngine S Tok SP) (r : ChatRequest Tok SP) :
    Nat → S → Tok → Nat → List Tok → List Tok
  | 0, _, _, _, generated => generated
  | left + 1, s, token, step, generated =>
    let (token', s') := engine.decodeStep s token (r.tokenIds.length + step - 1) r.sp
    if token' = engine.eosId then generated
    else decodeLoop engine r left s' token' (step + 1) (generated ++ [token'])

/-- Prefill and decode with the engine to itself, after the reset. -/
def afterReset (engine : PersistentEngine S Tok SP) (r : ChatRequest Tok SP) (s : S) : List Tok :=
  let (token, s') := engine.prefill s r.tokenIds r.sp
  if token = engine.eosId then []
  else decodeLoop engine r (r.maxTokens - 1).toNat s' token 1 [token]

/-- The tokens of an uninterrupted run of a request: reset, prefill of its prompt, decode. -/
def generate (engine : PersistentEngine S Tok SP) (r : ChatRequest Tok SP) (s : S) : List Tok :=
  afterReset engine r (engine.resetSession s)

/-- The tokens a session ends with when nobody else calls the engine from here on. -/
def outcome (engine : PersistentEngine S Tok SP) (r : ChatRequest Tok SP) (s : S) :
    Session Tok → List Tok
  | .start => generate engine r s
  | .cleared => afterReset engine r s
  | .running token step generated =>
    decodeLoop engine r (r.maxTokens - step).toNat s token step generated
  | .finished generated => generated

variable (engine : PersistentEngine S Tok SP) (r : ChatRequest Tok SP)

lemma decodeLoop_prefix (left : Nat) (s : S) (token : Tok) (step : Nat) (generated : List Tok) :
    generated <+: decodeLoop engine r left s token step generated := by
  induction left generalizing s token step generated with
  | zero => exact List.prefix_rfl
  | succ left ih =>
    unfold decodeLoop
    dsimp only
    split
    · exact List.prefix_rfl
    · exact (List.prefix_append _ _).trans (ih ..)

lemma outcome_afterToken (s : S) (token : Tok) (step : Nat) (generated : List Tok) :
    outcome engine r s (afterToken engine r token step generated) =
      if token = engine.eosId then generated
      else decodeLoop engine r (r.maxTokens - step).toNat s token step (generated ++ [token]) := by
  unfold afterToken
  split
  · rfl
  · split
    · rfl
    · have none_left : (r.maxTokens - step).toNat = 0 := by omega
      rw [none_left]
      rfl

/-- A running session has another token to decode. -/
def Session.Live (r : ChatRequest Tok SP) : Session Tok → Prop
  | .running _ step _ => (step : Int) < r.maxTokens
  | _ => True

omit [DecidableEq Tok] in
lemma Session.Live.left {token : Tok} {step : Nat} {generated : List Tok}
    (live : Session.Live r (.running token step generated)) :
    (r.maxTokens - step).toNat = (r.maxTokens - (step + 1 : Nat)).toNat + 1 := by
  have lt : (step : Int) < r.maxTokens := live
  omega

lemma live_afterToken (token : Tok) (step : Nat) (generated : List Tok) :
    Session.Live r (afterToken engine r token step generated) := by
  unfold afterToken
  split
  · trivial
  · split
    · assumption
    · trivial

variable {engine r}

lemma engineCall_outcome {s s' : S} {σ σ' : Session Tok} {call : Call} (live : Session.Live r σ)
    (eq : engineCall engine r s σ = some (call, s', σ')) :
    outcome engine r s' σ' = outcome engine r s σ := by
  cases σ with
  | start =>
    cases eq
    rfl
  | cleared =>
    cases eq
    exact outcome_afterToken engine r _ _ _ _
  | running token step generated =>
    cases eq
    rw [outcome_afterToken]
    simp only [outcome]
    rw [live.left]
    rfl
  | finished generated => cases eq

lemma engineCall_live {s s' : S} {σ σ' : Session Tok} {call : Call}
    (eq : engineCall engine r s σ = some (call, s', σ')) : Session.Live r σ' := by
  cases σ with
  | start =>
    cases eq
    trivial
  | cleared =>
    cases eq
    exact live_afterToken engine r _ _ _
  | running token step generated =>
    cases eq
    exact live_afterToken engine r _ _ _
  | finished generated => cases eq

lemma engineCall_open {s s' : S} {σ σ' : Session Tok} {call : Call}
    (eq : engineCall engine r s σ = some (call, s', σ')) : σ = .start ∨ σ.inProgress = true := by
  cases σ with
  | start => exact Or.inl rfl
  | cleared => exact Or.inr rfl
  | running token step generated => exact Or.inr rfl
  | finished generated => cases eq

lemma engineCall_begun {s s' : S} {σ σ' : Session Tok} {call : Call}
    (eq : engineCall engine r s σ = some (call, s', σ')) : σ' ≠ .start := by
  have afterToken_begun : ∀ token step generated,
      afterToken engine r token step generated ≠ .start := by
    intro token step generated
    unfold afterToken
    split
    · exact fun eq => by cases eq
    · split
      · exact fun eq => by cases eq
      · exact fun eq => by cases eq
  cases σ with
  | start =>
    cases eq
    exact fun eq => by cases eq
  | cleared =>
    cases eq
    exact afterToken_begun _ _ _
  | running token step generated =>
    cases eq
    exact afterToken_begun _ _ _
  | finished generated => cases eq

end Sessions

/-- How far the handling of a request has come. `session true σ` is the content provider of a
stream, which runs after its handler has returned. The last two carry the response's tokens. -/
inductive Pc (Tok : Type*) where
  | arrived
  | waiting
  | locked
  | registered
  | session (inProvider : Bool) (σ : Session Tok)
  | replied (response : Option (List Tok))
  | done (response : Option (List Tok))
deriving DecidableEq

namespace Pc

variable {Tok : Type*}

/-- The handler is inside the scope of its `lock_guard`. -/
def holdsLock : Pc Tok → Bool
  | .locked => true
  | .registered => true
  | .session inProvider _ => !inProvider
  | .replied _ => true
  | .arrived => false
  | .waiting => false
  | .done _ => false

/-- The request has a session open. -/
def isOpen : Pc Tok → Bool
  | .session _ σ => σ.inProgress
  | _ => false

/-- The session is about to begin: its next engine call is the reset. -/
def begins : Pc Tok → Bool
  | .session _ .start => true
  | _ => false

/-- The tokens of the response. -/
def response : Pc Tok → Option (List Tok)
  | .replied r => r
  | .done r => r
  | _ => none

/-- After the session: the handler still has to return, the provider has ended the response. -/
def afterSession (inProvider : Bool) (response : Option (List Tok)) : Pc Tok :=
  if inProvider then .done response else .replied response

lemma afterSession_isOpen (inProvider : Bool) (response : Option (List Tok)) :
    (afterSession inProvider response).isOpen = false := by
  cases inProvider with
  | true => rfl
  | false => rfl

lemma afterSession_holdsLock (inProvider : Bool) (response : Option (List Tok)) :
    (afterSession inProvider response).holdsLock = !inProvider := by
  cases inProvider with
  | true => rfl
  | false => rfl

end Pc

/-- The engine, the requests, the mutex and the threads; and the engine calls so far. -/
structure State (S Tok ι : Type*) where
  engine : S
  inflight : Option ι
  pc : ι → Pc Tok
  log : List (ι × Call)

/-- What a step of a request does. -/
inductive Event (ι : Type*) where
  | encode (i : ι)
  | acquire (i : ι)
  | check (i : ι)
  | call (i : ι)
  | reply (i : ι)
  | fail (i : ι)
  | release (i : ι)

/-- The server: its engine and the requests it gets. -/
structure OpenAIServer (S Tok SP ι : Type*) where
  engine : PersistentEngine S Tok SP
  request : ι → ChatRequest Tok SP

namespace OpenAIServer

variable {S Tok SP ι : Type*} [DecidableEq Tok] [DecidableEq ι]

/-- No request has been handled. -/
def init (engine : S) : State S Tok ι where
  engine := engine
  inflight := none
  pc := fun _ => .arrived
  log := []

/-- The handler with the lock: reject a request that does not fit, else hand it on. -/
def afterCheck (server : OpenAIServer S Tok SP ι) (i : ι) : Pc Tok :=
  let r := server.request i
  if (r.tokenIds.length : Int) + r.maxTokens > server.engine.maxContext then .replied none
  else if r.stream then .registered
  else .session false .start

/-- One request moves on. -/
def move (s : State S Tok ι) (i : ι) (pc : Pc Tok) : State S Tok ι :=
  { s with pc := Function.update s.pc i pc }

/-- One step of one request. -/
inductive Step (server : OpenAIServer S Tok SP ι) : State S Tok ι → Event ι → State S Tok ι → Prop where
  /-- Parsing and encoding, which can answer the request with an error. -/
  | encode {s i} (ok : Bool) : s.pc i = .arrived →
    Step server s (.encode i) (move s i (if ok then .waiting else .done none))
  | acquire {s i} : s.pc i = .waiting → s.inflight = none →
    Step server s (.acquire i) { move s i .locked with inflight := some i }
  | check {s i} : s.pc i = .locked →
    Step server s (.check i) (move s i (server.afterCheck i))
  | call {s i inProvider σ call engine' σ'} : s.pc i = .session inProvider σ →
    engineCall server.engine (server.request i) s.engine σ = some (call, engine', σ') →
    Step server s (.call i)
      { move s i (.session inProvider σ') with engine := engine', log := s.log ++ [(i, call)] }
  | reply {s i inProvider generated} : s.pc i = .session inProvider (.finished generated) →
    Step server s (.reply i) (move s i (.afterSession inProvider (some generated)))
  /-- An exception. One that an engine call of an open session throws leaves any engine state. -/
  | fail {s i inProvider σ} (engine' : S) : s.pc i = .session inProvider σ →
    Step server s (.fail i)
      { move s i (.afterSession inProvider none) with
        engine := if σ.inProgress then engine' else s.engine }
  /-- The handler of a finished or rejected request returns. -/
  | release {s i response} : s.pc i = .replied response →
    Step server s (.release i) { move s i (.done response) with inflight := none }
  /-- The handler of a stream returns, and its provider is invoked. -/
  | releaseStream {s i} : s.pc i = .registered →
    Step server s (.release i) { move s i (.session true .start) with inflight := none }

end OpenAIServer

end PocketMoE.Server
