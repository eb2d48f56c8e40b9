import PocketMoE.Lib.Ring
import PocketMoE.Lib.Softmax
import PocketMoE.Lib.Tensor

/-!
# The KV compressor

Model of `Compressor` (`runtime.py`). Rows of a batch are treated alike, so one batch row is
modelled. `X` is the type of a token's input and `K` that of the scalars; the projections `wkv` and
`wgate`, the positional bias `ape` and what follows the pooling (`norm`, rotation at a position,
quantisation: `finish`) are parameters. A state row has one entry for every output feature of a
projection; when windows overlap its first `headDim` entries serve the next group and the entries
after them the token's own group.

`forward` is a call: a batch at position 0 (`prefill`) or a single token after it (`step`).
-/

namespace PocketMoE.Runtime
open PocketMoE.Tensor PocketMoE.Softmax

variable {X K α β : Type}

/-- The parameters of a compressor. -/
structure Compressor (X K : Type) where
  compressRatio : Nat
  ratio_pos : 0 < compressRatio
  headDim : Nat
  ape : Nat → Nat → K
  wkv : X → Nat → K
  wgate : X → Nat → K
  expo : K → K
  finish : Nat → (Fin headDim → K) → Fin headDim → K

namespace Compressor

lemma ratio_four_pos : 0 < 4 := by decide

/-- Windows of neighbouring groups overlap. -/
abbrev overlap (c : Compressor X K) : Prop := c.compressRatio = 4

/-- The state slot of the current group's first token. -/
def offset (c : Compressor X K) : Nat := if c.overlap then c.compressRatio else 0

/-- The buffers of a compressor: the running window and the compressed cells. -/
@[ext] structure State (c : Compressor X K) where
  kvState : Nat → Nat → K
  scoreState : Nat → Nat → WithBot K
  kvCache : Nat → Fin c.headDim → K

/-- The buffers as they are registered: rows of zeros, scores of minus infinity. -/
def State.fresh [Zero K] (c : Compressor X K) (kvCache : Nat → Fin c.headDim → K) : State c where
  kvState := fun _ _ => 0
  scoreState := fun _ _ => ⊥
  kvCache := kvCache

variable (c : Compressor X K)

/-- `row[:d]`. -/
def overlapHalf (row : Nat → α) : Fin c.headDim → α := fun j => row j

/-- `row[d:]`. -/
def currentHalf (row : Nat → α) : Fin c.headDim → α := fun j => row (c.headDim + j)

/-- The score row of a token in slot `slot` of its group, `wgate(x) + ape[slot]`. -/
def scoreRow [Add K] (slot : Nat) (x : X) : Nat → WithBot K := fun j =>
  ((c.wgate x j + c.ape slot j : K) : WithBot K)

/-- `score + ape` for score rows that start a group. -/
def addApe [Add K] (score : List (Nat → K)) : List (Nat → WithBot K) :=
  score.mapIdx fun slot row j => ((row j + c.ape slot j : K) : WithBot K)

/-- `rows.unflatten(1, (-1, ratio))`. -/
def unflatten (rows : List β) : List (List β) :=
  (List.range (rows.length / c.compressRatio)).map fun g =>
    slice rows (g * c.compressRatio) ((g + 1) * c.compressRatio)

/-- `overlap_transform`: each group's rows, preceded by the overlapping halves of the group before
it, or by a filler in the first group. -/
def overlapTransform (value : α) (tensor : List (List (Nat → α))) :
    List (List (Fin c.headDim → α)) :=
  tensor.mapIdx fun s rows =>
    (if s = 0 then List.replicate c.compressRatio fun _ => value
      else ((tensor[s - 1]?).getD []).map c.overlapHalf) ++ rows.map c.currentHalf

/-- The gated pooling of a window, feature by feature. -/
def pool [Field K] (kv : List (Fin c.headDim → K)) (score : List (Fin c.headDim → WithBot K)) :
    Fin c.headDim → K := fun j =>
  softmaxSum c.expo (kv.map (· j)) (score.map (· j))

/-- The part of `forward` at position 0 that fills the running window: the last full group when
windows overlap, and the tokens after it. -/
def saveWindow [Add K] (s : State c) (kv score : List (Nat → K)) : State c :=
  let ratio := c.compressRatio
  let seqlen := kv.length
  let remainder := seqlen % ratio
  let cutoff := seqlen - remainder
  let s := if c.overlap ∧ ratio ≤ cutoff then
      { s with
        kvState := storeRows s.kvState 0 (slice kv (cutoff - ratio) cutoff)
        scoreState := storeRows s.scoreState 0 (c.addApe (slice score (cutoff - ratio) cutoff)) }
    else s
  if 0 < remainder then
    { s with
      kvState := storeRows s.kvState c.offset (slice kv cutoff seqlen)
      scoreState := storeRows s.scoreState c.offset (c.addApe (slice score cutoff seqlen)) }
  else s

/-- The part of `forward` at position 0 that pools the full groups. -/
def poolGroups [Field K] (kv score : List (Nat → K)) : List (Fin c.headDim → K) :=
  let cutoff := kv.length - kv.length % c.compressRatio
  let kv := c.unflatten (slice kv 0 cutoff)
  let score := (c.unflatten (slice score 0 cutoff)).map c.addApe
  let kv := if c.overlap then c.overlapTransform 0 kv else kv.map (·.map c.overlapHalf)
  let score := if c.overlap then c.overlapTransform ⊥ score else score.map (·.map c.overlapHalf)
  List.zipWith c.pool kv score

/-- `forward` at position 0, over the whole batch of tokens. -/
def prefill [Field K] (s : State c) (x : List X) :
    State c × Option (List (Fin c.headDim → K)) :=
  let ratio := c.compressRatio
  let kv := x.map c.wkv
  let score := x.map c.wgate
  let s := c.saveWindow s kv score
  let pooled := c.poolGroups kv score
  if x.length < ratio then
    (s, none)
  else
    let cells := pooled.mapIdx fun g cell => c.finish (g * ratio) cell
    ({ s with kvCache := storeRows s.kvCache 0 cells }, some cells)

/-- The window that a full state holds. -/
def stateWindow (state : Nat → Nat → α) : List (Fin c.headDim → α) :=
  if c.overlap then
    (List.range c.compressRatio).map (fun i => c.overlapHalf (state i)) ++
      (List.range c.compressRatio).map fun i => c.currentHalf (state (c.compressRatio + i))
  else
    (List.range c.compressRatio).map fun i => c.overlapHalf (state i)

/-- `state[:ratio] = state[ratio:]`. -/
def shift (state : Nat → Nat → α) : Nat → Nat → α := fun i =>
  if i < c.compressRatio then state (c.compressRatio + i) else state i

/-- `forward` of one token at a positive position. -/
def step [Field K] (s : State c) (x : X) (startPos : Nat) :
    State c × Option (List (Fin c.headDim → K)) :=
  let ratio := c.compressRatio
  let slot := startPos % ratio
  let kvState := Function.update s.kvState (c.offset + slot) (c.wkv x)
  let scoreState := Function.update s.scoreState (c.offset + slot) (c.scoreRow slot x)
  if (startPos + 1) % ratio = 0 then
    let kv := c.pool (c.stateWindow kvState) (c.stateWindow scoreState)
    let kv := c.finish (startPos + 1 - ratio) kv
    ({ kvState := if c.overlap then c.shift kvState else kvState
       scoreState := if c.overlap then c.shift scoreState else scoreState
       kvCache := Function.update s.kvCache (startPos / ratio) kv }, some [kv])
  else
    ({ s with kvState, scoreState }, none)

/-- A call on the tokens at `startPos ..`; at a positive position only a single token fits the
state's row. -/
def forward [Field K] (s : State c) (x : List X) (startPos : Nat) :
    Option (State c × Option (List (Fin c.headDim → K))) :=
  if startPos = 0 then
    some (c.prefill s x)
  else
    match x with
    | [x] => some (c.step s x startPos)
    | _ => none

/-- The buffers after a sequence of calls on consecutive pieces of a request. -/
def calls [Field K] (s : State c) (startPos : Nat) : List (List X) → Option (State c)
  | [] => some s
  | x :: rest => do
    let (s, _) ← c.forward s x startPos
    calls s (startPos + x.length) rest

end Compressor

end PocketMoE.Runtime
