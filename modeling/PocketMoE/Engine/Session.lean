import PocketMoE.Engine.Layer
import PocketMoE.Lib.Pipeline

/-!
# Sessions of the C++ engine

Model of `PersistentEngine` (`dsv4_engine.cpp`, lines 9221 to 9320): `reset_session`, `prefill` of a
prompt and `decode_step`, over all layers. Prefill takes the prompt through one layer after the
other, chunk by chunk; a decoded token goes through all layers at once. A session is the list of the
layers with their buffers.
-/

namespace PocketMoE.Engine
open PocketMoE.Lib PocketMoE.Tensor

variable {T X K : Type}

/-- The layers and their buffers. -/
abbrev Session (X K : Type) := List (Layer X K × LayerState K)

/-- The configuration of the layers. -/
def Session.config (session : Session X K) : List LayerConfig :=
  session.map fun slot => slot.1.toLayerConfig

/-- The engine: its configuration, the embedding, and the head with the greedy choice. -/
structure PersistentEngine (T X K : Type) where
  config : EngineConfig
  options : PrefillOptions
  expo : K → K
  embed : T → X
  select : X → T

section Prefill

variable (cfg : EngineConfig) (opts : PrefillOptions) (order : CopyOrder cfg.windowSize)

/-- The first chunks of a prompt in a layer: the state, the layer's KV rows and its output rows. -/
def prefillChunks (layer : Nat) (l : Layer X K) (s : LayerState K) (xs : List X) (size : Nat) :
    Nat → LayerState K × List (Row K) × List X
  | 0 => (s, [], [])
  | b + 1 =>
    let (s, kvNorm, ys) := prefillChunks layer l s xs size b
    let part := slice xs (b * size) ((b + 1) * size)
    if opts.batchedAttn then
      let winner := order.winner layer (b * size) part.length
      let (s, kvNorm, out) := prefillBatch cfg l winner xs.length s kvNorm (b * size) part
      (s, kvNorm, ys ++ out)
    else
      let (s, out) := stage (prefillToken cfg) l s (b * size) part
      (s, kvNorm, ys ++ out)

/-- The chunk loop of a layer. -/
def prefillLayer (layer : Nat) (l : Layer X K) (s : LayerState K) (xs : List X) :
    LayerState K × List X :=
  let size := opts.chunkSize xs.length
  let (s, _, ys) :=
    prefillChunks cfg opts order layer l s xs size ((xs.length + size - 1) / size)
  (s, ys)

/-- The layer loop of a prompt. -/
def prefillStack (layer : Nat) : Session X K → List X → Session X K × List X
  | [], xs => ([], xs)
  | (l, s) :: rest, xs =>
    let (s, ys) := prefillLayer cfg opts order layer l s xs
    let (rest, zs) := prefillStack (layer + 1) rest ys
    ((l, s) :: rest, zs)

end Prefill

namespace PersistentEngine

variable [Field K] [LinearOrder K] (e : PersistentEngine T X K)

omit [LinearOrder K] in
/-- `PersistentEngine::reset_session`. -/
def resetSession (session : Session X K) : Session X K :=
  session.map fun slot => (slot.1, slot.2.reset)

omit [Field K] [LinearOrder K] in
/-- `PersistentEngine::prefill`, which throws on an empty prompt. -/
def prefill (order : CopyOrder e.config.windowSize) (session : Session X K) (tokenIds : List T) :
    Option (Session X K × T) :=
  let (session, ys) := prefillStack e.config e.options order 0 session (tokenIds.map e.embed)
  ys.getLast?.map fun y => (session, e.select y)

/-- `PersistentEngine::decode_step`. -/
def decodeStep (session : Session X K) (lastToken : T) (position : Nat) : Session X K × T :=
  let (session, y) := feed (decodeLayer e.config e.expo) session position (e.embed lastToken)
  (session, e.select y)

/-- Decode steps of given tokens at consecutive positions. -/
def decodeSteps (session : Session X K) (position : Nat) : List T → Session X K
  | [] => session
  | token :: rest => decodeSteps (e.decodeStep session token position).1 (position + 1) rest

/-- `m` greedy decode steps: each feeds the token before. -/
def decodeGreedy (session : Session X K) (token : T) (position : Nat) :
    Nat → Session X K × List T
  | 0 => (session, [])
  | m + 1 =>
    let (session, next) := e.decodeStep session token position
    let (session, tokens) := decodeGreedy session next (position + 1) m
    (session, next :: tokens)

/-- A request after a reset: prefill of the prompt and `m` greedy decode steps. -/
def generate (order : CopyOrder e.config.windowSize) (session : Session X K) (prompt : List T)
    (m : Nat) : Option (Session X K × List T) := do
  let (session, token) ← e.prefill order (resetSession session) prompt
  let (session, tokens) := e.decodeGreedy session token prompt.length m
  pure (session, token :: tokens)

variable {e}

lemma decodeSteps_eq (session : Session X K) (position : Nat) (tokens : List T) :
    e.decodeSteps session position tokens =
      (feedAll (decodeLayer e.config e.expo) session position (tokens.map e.embed)).1 := by
  induction tokens generalizing session position with
  | nil => rfl
  | cons token rest ih =>
    rw [decodeSteps, ih]
    rfl

end PersistentEngine

end PocketMoE.Engine
