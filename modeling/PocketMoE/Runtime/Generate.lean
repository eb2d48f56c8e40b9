import PocketMoE.Runtime.Attention

/-!
# Requests on one model

Model of `Transformer.forward` (`runtime.py`) and of `generate` (`generation.py`) for one prompt,
without speculation and without prefix snapshots, which both have to be asked for. A session is what
a model object keeps between two calls: its blocks, each with its buffers. Nothing in `generate`
resets them.

The head, the logit processors and the sampling of a request are one parameter, `nextToken`, of the
tokens so far and of the last hidden row. `generate` returns the completion together with the rows
that the queries of the request attended, in order.
-/

namespace PocketMoE.Runtime
open PocketMoE.Tensor

variable {T X Q K : Type} [LinearOrder K] {d : Nat}

/-- The blocks of a model with their buffers. -/
abbrev Session (X Q K : Type) [LinearOrder K] (d : Nat) := List (Σ b : Block X Q K d, b.State)

/-- The parameters of a model. -/
structure Transformer (T X Q K : Type) [LinearOrder K] (d : Nat) where
  maxSeqLen : Nat
  layers : List (Block X Q K d)
  embed : T → X

/-- What `generate` is called with. -/
structure Request (T X : Type) where
  prompt : List T
  prompt_ne : prompt ≠ []
  maxNewTokens : Nat
  eosId : T
  needsLogits : Bool
  prefillChunkTokens : Nat
  nextToken : List T → X → T

namespace Request

/-- The prompt is fed in chunks. -/
def Chunked (r : Request T X) : Prop :=
  r.needsLogits = false ∧ 0 < r.prefillChunkTokens ∧ r.prefillChunkTokens < r.prompt.length

instance (r : Request T X) : Decidable r.Chunked :=
  inferInstanceAs (Decidable (_ ∧ _ ∧ _))

/-- The pieces of the prompt that go into one call each. -/
def pieces (r : Request T X) : List (List T) :=
  if r.Chunked then
    let chunk := r.prefillChunkTokens
    (List.range ((r.prompt.length + chunk - 1) / chunk)).map fun i =>
      slice r.prompt (i * chunk) ((i + 1) * chunk)
  else
    [r.prompt]

end Request

namespace Transformer

/-- A model object as it is constructed; `junk` is what fresh memory holds. -/
def fresh [Zero K] (m : Transformer T X Q K d) (junk : Nat → Int) : Session X Q K d :=
  m.layers.map fun b => ⟨b, .fresh b junk⟩

/-- `_run_local_layers`. -/
def runLocalLayers [Field K] (startPos : Nat) : Session X Q K d → List X →
    Session X Q K d × List X × List (List (Fin d → K))
  | [], x => ([], x, [])
  | ⟨b, s⟩ :: rest, x =>
    let (s, x, reads) := b.forward s startPos x
    let (rest, x, later) := runLocalLayers startPos rest x
    (⟨b, s⟩ :: rest, x, reads ++ later)

variable [Field K] (m : Transformer T X Q K d)

/-- `forward`, up to the head. -/
def forward (session : Session X Q K d) (startPos : Nat) (tokens : List T) :
    Session X Q K d × List X × List (List (Fin d → K)) :=
  runLocalLayers startPos session (tokens.map m.embed)

/-- Calls on consecutive pieces; only the rows of the last one are returned. -/
def forwardPieces (session : Session X Q K d) (startPos : Nat) (x : List X) :
    List (List T) → Session X Q K d × List X × List (List (Fin d → K))
  | [] => (session, x, [])
  | piece :: rest =>
    let (session, x, reads) := m.forward session startPos piece
    let (session, x, later) := forwardPieces session (startPos + piece.length) x rest
    (session, x, reads ++ later)

/-- `total_len`. -/
def totalLen (r : Request T X) : Nat :=
  min m.maxSeqLen (r.maxNewTokens + r.prompt.length)

/-- The loop of `generate`, with `tokens` up to `cur_pos` and the pieces from `prev_pos` on, for the
positions that are left until `total_len`. -/
def loop [DecidableEq T] (r : Request T X) (session : Session X Q K d) (prevPos : Nat)
    (pieces : List (List T)) (tokens : List T) :
    Nat → Session X Q K d × List T × List (List (Fin d → K))
  | 0 => (session, tokens, [])
  | left + 1 =>
    let (session, x, reads) := m.forwardPieces session prevPos [] pieces
    match x.getLast? with
    | none => (session, tokens, reads)
    | some h =>
      let next := r.nextToken tokens h
      if next = r.eosId then
        (session, tokens ++ [next], reads)
      else
        let (session, tokens, later) :=
          loop r session tokens.length [[next]] (tokens ++ [next]) left
        (session, tokens, reads ++ later)

/-- `completion_tokens` of the tokens of a request. -/
def completion [DecidableEq T] (r : Request T X) (tokens : List T) : List T :=
  ((tokens.drop r.prompt.length).take r.maxNewTokens).takeWhile (· ≠ r.eosId) ++ [r.eosId]

/-- `generate`: the completion and the rows that were attended, unless the prompt is too long. -/
def generate [DecidableEq T] (session : Session X Q K d) (r : Request T X) :
    Option (Session X Q K d × List T × List (List (Fin d → K))) :=
  if r.prompt.length ≤ m.maxSeqLen then
    let (session, tokens, reads) :=
      m.loop r session 0 r.pieces r.prompt (m.totalLen r - r.prompt.length)
    some (session, completion r tokens, reads)
  else
    none

/-- One request after the other on the same model object; one that is refused leaves it alone. -/
def serve [DecidableEq T] (session : Session X Q K d) : List (Request T X) → Session X Q K d
  | [] => session
  | r :: rest => serve (((m.generate session r).map Prod.fst).getD session) rest

end Transformer

end PocketMoE.Runtime
