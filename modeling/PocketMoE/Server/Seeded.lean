import PocketMoE.Engine.Sampler
import PocketMoE.Lib.Trans
import Mathlib.Algebra.Order.Ring.Rat

/-!
# Seeded requests

The chat loop of the C++ server on the engine's generator. `maybe_reseed` seeds the generator only
if a request's seed differs from the last one. `seeded_reproducible`: equal seeded requests return
the same tokens in every history in which each finds another remembered seed or the generator as
seeding has left it. A second request with the seed of the one before goes on with its numbers
(`same_seed_twice`).

`Event.call` is any other use of the engine: a step of a stream, or of a request that fails.
-/

namespace PocketMoE.Server
open PocketMoE.Lib PocketMoE.Engine

/-- What a request says. -/
structure SeededRequest (F : Type) where
  tokenIds : List Nat
  maxTokens : Nat
  sp : SamplingParams F

/-- The tokens, and that the model has ended them. -/
structure Generated where
  tokens : List Nat
  hitEos : Bool
deriving DecidableEq

/-- A server. The logits depend on the tokens of the request so far. -/
structure SeededServer (F D : Type) where
  floats : Floats F D
  gathered : Bool
  logits : List Nat → List F
  eosId : Nat

namespace SeededServer

variable {F D : Type} (v : SeededServer F D)

/-- `decode_step`, or `prefill` if nothing has been generated. -/
def select (r : SeededRequest F) (generated : List Nat) (s : EngineRng) :
    Except SamplerError Nat × EngineRng :=
  s.step v.floats v.gathered (some (v.logits (r.tokenIds ++ generated))) r.sp

/-- The decode loop of `handle_nonstream`, with the steps that are left. -/
def decode (r : SeededRequest F) (generated : List Nat) :
    Nat → EngineRng → Except SamplerError Generated × EngineRng
  | 0, s => (.ok ⟨generated, false⟩, s)
  | left + 1, s =>
    match v.select r generated s with
    | (.error e, s) => (.error e, s)
    | (.ok token, s) =>
      if token = v.eosId then (.ok ⟨generated, true⟩, s)
      else decode r (generated ++ [token]) left s

/-- `handle_nonstream`, up to the decoding of the tokens. -/
def handleNonstream (r : SeededRequest F) (s : EngineRng) :
    Except SamplerError Generated × EngineRng :=
  match v.select r [] s with
  | (.error e, s) => (.error e, s)
  | (.ok token, s) =>
    if token = v.eosId then (.ok ⟨[], true⟩, s)
    else v.decode r [token] (r.maxTokens - 1) s

/-- What happens on a server. -/
inductive Event (F : Type) where
  | served (r : SeededRequest F) (out : Except SamplerError Generated)
  | call (forward : Option (List F)) (sp : SamplingParams F)

/-- One step of a history. -/
inductive Step : EngineRng → Event F → EngineRng → Prop where
  | served (s : EngineRng) (r : SeededRequest F) :
    Step s (.served r (v.handleNonstream r s).1) (v.handleNonstream r s).2
  | call (s : EngineRng) (forward : Option (List F)) (sp : SamplingParams F) :
    Step s (.call forward sp) (s.step v.floats v.gathered forward sp).2

/-- A seeded request that draws finds another seed, or the generator as seeding has left it. -/
def Fresh (s : EngineRng) : Event F → Prop
  | .served r _ => r.sp.seed = 0 ∨ r.sp.isGreedy v.floats = true ∨ s.rngSeed ≠ r.sp.seed ∨
      s.rng = .seed r.sp.seed
  | .call _ _ => True

/-- The state of a seeded generator that has not been drawn from. -/
def seeded (seed : Nat) : EngineRng := ⟨seed, .seed seed⟩

variable {v} {r : SeededRequest F} {s t : EngineRng}

/-- A state after which a request with this seed is served as one with a new generator is. -/
def Seeds (r : SeededRequest F) (s : EngineRng) : Prop :=
  s.maybeReseed r.sp.seed = seeded r.sp.seed

lemma maybeReseed_seed {seed : Nat} (ne : seed ≠ 0) (s : EngineRng) :
    (s.maybeReseed seed).rngSeed = seed := by
  unfold EngineRng.maybeReseed
  split_ifs with reseeds
  · rfl
  · by_contra differs
    exact reseeds ⟨ne, Ne.symm differs⟩

lemma maybeReseed_seeded (seed : Nat) : (seeded seed).maybeReseed seed = seeded seed := by
  unfold EngineRng.maybeReseed
  rw [if_neg (fun reseeds => reseeds.2 rfl)]

lemma seeds_of_fresh (ne : r.sp.seed ≠ 0)
    (fresh : s.rngSeed ≠ r.sp.seed ∨ s.rng = .seed r.sp.seed) : Seeds r s := by
  unfold Seeds EngineRng.maybeReseed
  rcases eq_or_ne r.sp.seed s.rngSeed with same | differs
  · rw [if_neg (fun reseeds => reseeds.2 same)]
    obtain ⟨rngSeed, rng⟩ := s
    obtain rfl : r.sp.seed = rngSeed := same
    rcases fresh with other | untouched
    · exact absurd rfl other
    · exact congrArg (EngineRng.mk r.sp.seed) untouched
  · rw [if_pos ⟨ne, differs⟩]
    rfl

lemma select_of_seeds (same : s.maybeReseed r.sp.seed = t.maybeReseed r.sp.seed)
    (generated : List Nat) : v.select r generated s = v.select r generated t := by
  unfold select EngineRng.step
  rw [same]

lemma handleNonstream_of_seeds (same : s.maybeReseed r.sp.seed = t.maybeReseed r.sp.seed) :
    v.handleNonstream r s = v.handleNonstream r t := by
  unfold handleNonstream
  rw [select_of_seeds same]

lemma select_rngSeed (ne : r.sp.seed ≠ 0) (generated : List Nat) (s : EngineRng) :
    (v.select r generated s).2.rngSeed = r.sp.seed := by
  unfold select EngineRng.step
  dsimp only
  cases selectToken v.floats v.gathered r.sp (v.logits (r.tokenIds ++ generated))
      (s.maybeReseed r.sp.seed).rng with
  | error e => exact maybeReseed_seed ne s
  | ok selected => exact maybeReseed_seed ne s

lemma decode_rngSeed (ne : r.sp.seed ≠ 0) (generated : List Nat) (left : Nat)
    (remembered : s.rngSeed = r.sp.seed) : (v.decode r generated left s).2.rngSeed = r.sp.seed := by
  induction left generalizing generated s with
  | zero => exact remembered
  | succ left ih =>
    have after := select_rngSeed (v := v) ne generated s
    unfold decode
    generalize v.select r generated s = selected at after ⊢
    obtain ⟨out, s'⟩ := selected
    cases out with
    | error e => exact after
    | ok token =>
      dsimp only
      split_ifs with ends
      · exact after
      · exact ih _ after

lemma handleNonstream_rngSeed (ne : r.sp.seed ≠ 0) (s : EngineRng) :
    (v.handleNonstream r s).2.rngSeed = r.sp.seed := by
  have after := select_rngSeed (v := v) ne [] s
  unfold handleNonstream
  generalize v.select r [] s = selected at after ⊢
  obtain ⟨out, s'⟩ := selected
  cases out with
  | error e => exact after
  | ok token =>
    dsimp only
    split_ifs with ends
    · exact after
    · exact decode_rngSeed ne _ _ after

lemma select_greedy (greedy : r.sp.isGreedy v.floats = true) (generated : List Nat)
    (s t : EngineRng) : (v.select r generated s).1 = (v.select r generated t).1 := by
  unfold select EngineRng.step
  dsimp only
  unfold selectToken
  cases v.logits (r.tokenIds ++ generated) with
  | nil => rfl
  | cons first rest =>
    simp only [greedy, if_true]
    cases v.gathered with
    | true => rfl
    | false => rfl

lemma decode_greedy (greedy : r.sp.isGreedy v.floats = true) (generated : List Nat) (left : Nat)
    (s t : EngineRng) : (v.decode r generated left s).1 = (v.decode r generated left t).1 := by
  induction left generalizing generated s t with
  | zero => rfl
  | succ left ih =>
    have same := select_greedy greedy generated s t
    unfold decode
    rcases here : v.select r generated s with ⟨out, s'⟩
    rcases there : v.select r generated t with ⟨out', t'⟩
    obtain rfl : out = out' := by rw [here, there] at same; exact same
    cases out with
    | error e => rfl
    | ok token =>
      dsimp only
      split_ifs with ends
      · rfl
      · exact ih _ s' t'

lemma handleNonstream_greedy (greedy : r.sp.isGreedy v.floats = true) (s t : EngineRng) :
    (v.handleNonstream r s).1 = (v.handleNonstream r t).1 := by
  have same := select_greedy greedy [] s t
  unfold handleNonstream
  rcases here : v.select r [] s with ⟨out, s'⟩
  rcases there : v.select r [] t with ⟨out', t'⟩
  obtain rfl : out = out' := by rw [here, there] at same; exact same
  cases out with
  | error e => rfl
  | ok token =>
    dsimp only
    split_ifs with ends
    · rfl
    · exact decode_greedy greedy _ _ s' t'

lemma handleNonstream_fresh {out : Except SamplerError Generated} (ne : r.sp.seed ≠ 0)
    (fresh : v.Fresh s (.served r out)) :
    (v.handleNonstream r s).1 = (v.handleNonstream r (seeded r.sp.seed)).1 := by
  rcases fresh with zero | greedy | drawn
  · exact absurd zero ne
  · exact handleNonstream_greedy greedy ..
  · have seeds : Seeds r s := seeds_of_fresh ne drawn
    rw [handleNonstream_of_seeds (seeds.trans (maybeReseed_seeded r.sp.seed).symm)]

/-- In every history two equal seeded requests return the same if both are fresh. -/
theorem seeded_reproducible (v : SeededServer F D) {first last : EngineRng}
    {trace : List (EngineRng × Event F)} (run : Run v.Step first trace last)
    {r : SeededRequest F} (ne : r.sp.seed ≠ 0) {out out' : Except SamplerError Generated}
    (here : (s, .served r out) ∈ trace) (there : (t, .served r out') ∈ trace)
    (fresh : v.Fresh s (.served r out)) (fresh' : v.Fresh t (.served r out')) : out = out' := by
  have result : ∀ {s out}, (s, .served r out) ∈ trace → v.Fresh s (.served r out) →
      out = (v.handleNonstream r (seeded r.sp.seed)).1 := by
    intro s out member fresh
    obtain ⟨after, st⟩ : ∃ after, v.Step s (.served r out) after := run.step_of_mem _ member
    rw [← handleNonstream_fresh ne fresh]
    cases st with
    | served => rfl
  rw [result here fresh, result there fresh']

/-- Exact arithmetic, with the exponential of zero. -/
def exactFloats : Floats ℚ ℚ where
  zero := 0
  one := 1
  tiny := 1 / 100000
  bottom := -1
  lt := fun x y => x < y
  le := fun x y => x ≤ y
  mul := fun x y => x * y
  sub := fun x y => x - y
  inv := fun x => x⁻¹
  exp := fun x => if x = 0 then 1 else 0
  uniform := fun word => (word : ℚ) / 2 ^ 32
  sort := fun ps => List.range ps.length
  wide := id
  narrow := id
  zeroD := 0
  add := fun x y => x + y
  invD := fun x => x⁻¹
  leD := fun x y => x ≤ y

/-- A server for which tokens 0 and 1 are always as likely. -/
def coin : SeededServer ℚ ℚ where
  floats := exactFloats
  gathered := false
  logits := fun _ => [0, 0]
  eosId := 2

/-- A request for one token. -/
def toss (seed : Nat) : SeededRequest ℚ where
  tokenIds := [5]
  maxTokens := 1
  sp := ⟨1, 1, false, seed⟩

/-- A seeded request and then the same one: the tokens are 0 and 1. -/
theorem same_seed_twice : ∃ trace last s t out out', Run coin.Step EngineRng.init trace last ∧
    (toss 1).sp.seed ≠ 0 ∧ (s, .served (toss 1) out) ∈ trace ∧ (t, .served (toss 1) out') ∈ trace ∧
    out = .ok ⟨[0], false⟩ ∧ out' = .ok ⟨[1], false⟩ :=
  ⟨_, _, _, _, _, _, .cons (.served _ (toss 1)) <| .cons (.served _ (toss 1)) <| .nil _,
    Nat.one_ne_zero, List.mem_cons_self .., List.mem_cons_of_mem _ (List.mem_cons_self ..),
    by decide +kernel, by decide +kernel⟩

/-- The generator after a request with the seed 1 and one with the seed 2. -/
def afterTwo : EngineRng :=
  (coin.handleNonstream (toss 2) (coin.handleNonstream (toss 1) EngineRng.init).2).2

/-- With another seed in between the two tokens are the same. -/
theorem other_seed_between : (coin.handleNonstream (toss 1) EngineRng.init).1 =
    (coin.handleNonstream (toss 1) afterTwo).1 := by
  have run : Run coin.Step EngineRng.init _ _ :=
    .cons (.served _ (toss 1)) <| .cons (.served _ (toss 2)) <| .cons (.served _ (toss 1)) <| .nil _
  have other : afterTwo.rngSeed ≠ (toss 1).sp.seed := by
    rw [afterTwo, handleNonstream_rngSeed (r := toss 2) (by decide)]
    decide
  exact seeded_reproducible coin run (r := toss 1) Nat.one_ne_zero (List.mem_cons_self ..)
    (List.mem_cons_of_mem _ (List.mem_cons_of_mem _ (List.mem_cons_self ..)))
    (.inr (.inr (.inl (by decide)))) (.inr (.inr (.inl other)))

end SeededServer

end PocketMoE.Server
