import PocketMoE.Lib.Except
import Mathlib.Data.Nat.Bitwise

/-!
# The sampler

`sample_token_top_p` (`sampler.cpp`), `select_token` and `maybe_reseed` (`dsv4_engine.cpp`). The
engine keeps one generator and the seed it was given last, and consults both in every step. What
`float` and `double` do is a parameter.
-/

namespace PocketMoE.Engine
open PocketMoE.Lib

/-- `std::mt19937`: its last 624 words, the oldest first. -/
structure Mt19937 where
  words : List Nat
deriving DecidableEq

namespace Mt19937

/-- The words of a seed after a given one. -/
def seedFrom (previous i : Nat) : Nat → List Nat
  | 0 => []
  | n + 1 =>
    let word := (1812433253 * (previous ^^^ (previous >>> 30)) + i) % 2 ^ 32
    word :: seedFrom word (i + 1) n

/-- `rng.seed(static_cast<result_type>(value))`. -/
def seed (value : Nat) : Mt19937 := ⟨value % 2 ^ 32 :: seedFrom (value % 2 ^ 32) 1 623⟩

/-- The word after the last one. -/
def twist (g : Mt19937) : Nat :=
  let y := (g.words.getD 0 0 &&& 0x80000000) ||| (g.words.getD 1 0 &&& 0x7fffffff)
  g.words.getD 397 0 ^^^ (y >>> 1) ^^^ (if y % 2 = 1 then 0x9908b0df else 0)

/-- The number that is drawn for a word. -/
def temper (word : Nat) : Nat :=
  let y := word ^^^ (word >>> 11)
  let y := y ^^^ ((y <<< 7) &&& 0x9d2c5680)
  let y := y ^^^ ((y <<< 15) &&& 0xefc60000)
  y ^^^ (y >>> 18)

/-- `rng()`. -/
def next (g : Mt19937) : Nat × Mt19937 := (temper g.twist, ⟨g.words.tail ++ [g.twist]⟩)

end Mt19937

/-- What the sampler needs of `float` (`F`) and `double` (`D`). -/
structure Floats (F D : Type) where
  zero : F
  one : F
  /-- `1.0e-5f` -/
  tiny : F
  /-- `-INFINITY` -/
  bottom : F
  lt : F → F → Bool
  le : F → F → Bool
  mul : F → F → F
  sub : F → F → F
  /-- `1.0f / x` -/
  inv : F → F
  exp : F → F
  /-- `std::uniform_real_distribution<float>(0, 1)` on one number of the generator -/
  uniform : Nat → F
  /-- `std::sort` of the indices, the largest probability first -/
  sort : List F → List Nat
  wide : F → D
  narrow : D → F
  zeroD : D
  add : D → D → D
  /-- `1.0 / x` -/
  invD : D → D
  leD : D → D → Bool

/-- The exceptions. -/
inductive SamplerError
  /-- `sampler: invalid logits` -/
  | logits
  /-- `select_token: empty local logits` -/
  | empty
  /-- An exception of the forward pass. -/
  | forward
deriving DecidableEq

/-- `SamplingParams`. -/
structure SamplingParams (F : Type) where
  temperature : F
  topP : F
  greedy : Bool
  seed : Nat

section

variable {F D : Type} (a : Floats F D)

/-- The loop of an argmax, from the index `i` on. -/
def argmax (best : Nat) (value : F) (i : Nat) : List F → Nat
  | [] => best
  | logit :: logits =>
    if a.lt value logit then argmax i logit (i + 1) logits else argmax best value (i + 1) logits

/-- The probabilities of the tokens. -/
def probs (logits : List F) (first : F) (temperature : F) : List F :=
  let invT := a.inv temperature
  let scaled := logits.map fun logit => a.mul logit invT
  let maxV := scaled.tail.foldl (fun best v => if a.lt best v then v else best) (a.mul first invT)
  let exps := scaled.map fun v => a.exp (a.sub v maxV)
  let denom := exps.foldl (fun sum p => a.add sum (a.wide p)) a.zeroD
  exps.map fun p => a.mul p (a.narrow (a.invD denom))

/-- How many of the sorted probabilities are kept. -/
def keepCount (topP : F) (cum : D) (kept vocab : Nat) : List F → Nat
  | [] => vocab
  | p :: ps =>
    let cum := a.add cum (a.wide p)
    if a.leD (a.wide topP) cum then kept + 1 else keepCount topP cum (kept + 1) vocab ps

/-- The first candidate at which the probabilities add up to `u`. -/
def pick (u : F) (last : Nat) (accum : D) : List (Nat × F) → Nat
  | [] => last
  | (token, p) :: candidates =>
    let accum := a.add accum (a.wide p)
    if a.le u (a.narrow accum) then token else pick u last accum candidates

/-- `sample_token_top_p`. -/
def sampleTokenTopP (logits : List F) (temperature topP : F) (rng : Mt19937) :
    Except SamplerError (Nat × Mt19937) :=
  match logits with
  | [] => throw .logits
  | first :: rest =>
    if a.le temperature a.tiny then pure (argmax a 0 first 1 rest, rng)
    else
      let ps := probs a logits first temperature
      let (word, rng') := rng.next
      let u := a.uniform word
      if a.lt a.zero topP && a.lt topP a.one then
        let idx := a.sort ps
        let sorted := idx.map fun i => ps.getD i a.zero
        let keep := keepCount a topP a.zeroD 0 ps.length sorted
        let keptSum := (sorted.take keep).foldl (fun sum p => a.add sum (a.wide p)) a.zeroD
        let invKept := a.narrow (a.invD keptSum)
        let candidates := (idx.zip sorted).take keep
        pure (pick a u (idx.getD (keep - 1) 0) a.zeroD
          (candidates.map fun c => (c.1, a.mul c.2 invKept)), rng')
      else pure (pick a u (ps.length - 1) a.zeroD ((List.range ps.length).zip ps), rng')

/-- The token is an argmax. -/
def SamplingParams.isGreedy (sp : SamplingParams F) : Bool :=
  sp.greedy || a.le sp.temperature a.tiny

/-- `select_token`, on rank 0. The ranks' logits are gathered if there is more than one rank. -/
def selectToken (gathered : Bool) (sp : SamplingParams F) (logits : List F) (rng : Mt19937) :
    Except SamplerError (Nat × Mt19937) :=
  match logits with
  | [] => throw .empty
  | first :: rest =>
    if sp.isGreedy a then
      if gathered then pure (argmax a 0 first 1 rest, rng)
      else pure (argmax a 0 a.bottom 0 logits, rng)
    else sampleTokenTopP a logits sp.temperature sp.topP rng

end

/-- The generator of an engine, and the seed it was given last. -/
structure EngineRng where
  rngSeed : Nat
  rng : Mt19937

namespace EngineRng

/-- The generator of a new engine. -/
def init : EngineRng := ⟨0, .seed 0xDEEDBEEF⟩

/-- `maybe_reseed`. -/
def maybeReseed (seed : Nat) (s : EngineRng) : EngineRng :=
  if seed ≠ 0 ∧ seed ≠ s.rngSeed then ⟨seed, .seed seed⟩ else s

variable {F D : Type} (a : Floats F D) (gathered : Bool)

/-- `PersistentEngine::prefill` or `decode_step`, with the logits of its forward pass unless that
throws. -/
def step (forward : Option (List F)) (sp : SamplingParams F) (s : EngineRng) :
    Except SamplerError Nat × EngineRng :=
  let s := s.maybeReseed sp.seed
  match forward with
  | none => (.error .forward, s)
  | some logits =>
    match selectToken a gathered sp logits s.rng with
    | .error e => (.error e, s)
    | .ok (token, rng) => (.ok token, { s with rng := rng })

end EngineRng

end PocketMoE.Engine
