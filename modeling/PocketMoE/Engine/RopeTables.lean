import Mathlib.Algebra.Order.Floor.Ring
import Mathlib.Analysis.SpecialFunctions.Pow.Real
import Mathlib.Tactic.FieldSimp
import Mathlib.Tactic.Linarith
import Mathlib.Tactic.Ring
import PocketMoE.Lib.Numerals

/-!
# The tables of rotary frequencies

`precompute_freqs_cis` (`runtime.py`) against `rope_inv_freqs_for` and the kernels that take a theta
(`dsv4_engine.cpp`, `cuda_ops.cu`): the angle by which a pair of a row is turned, in exact
arithmetic. `log` is any function, and so is `Power.pow` up to its laws.

The safetensors engine evaluates the YaRN ramp at `2 * i` and not at `i`, and takes 65536 for a
missing original length; the GGUF engine turns everything by the plain theta of the model.
`ropes_iff` says for which layers the three agree.
-/

namespace PocketMoE.Engine

variable {K : Type*} [Field K] [LinearOrder K] [FloorRing K]

/-- Powers of positive bases. -/
structure Power (K : Type*) [Field K] [LinearOrder K] where
  pow : K → K → K
  pow_pos : ∀ b x, 0 < b → 0 < pow b x
  pow_zero : ∀ b, 0 < b → pow b 0 = 1
  pow_neg : ∀ b x, 0 < b → pow b (-x) = 1 / pow b x

/-- The rope configuration of a checkpoint; an original length of 0 turns YaRN off. -/
structure RopeConfig (K : Type*) [Field K] [LinearOrder K] where
  ropeDim : Nat
  ropeTheta : K
  compressRopeTheta : K
  ropeFactor : K
  betaFast : K
  betaSlow : K
  originalSeqLen : Nat
  ropeDim_pos : 0 < ropeDim
  ropeDim_even : ropeDim % 2 = 0
  ropeTheta_pos : 0 < ropeTheta
  compressRopeTheta_pos : 0 < compressRopeTheta
  ropeFactor_pos : 0 < ropeFactor
  betaFast_pos : 0 < betaFast
  betaSlow_pos : 0 < betaSlow

/-- What is turned in a layer: queries, the keys of the window and of compressed cells, and back
again the rows of the attention. -/
inductive RopeUse where
  | query
  | windowKey
  | compressedKey
  | value
deriving DecidableEq

/-- The position whose angle is taken when the token at `position` is processed. -/
def RopeUse.angled (use : RopeUse) (ratio position : Nat) : Nat :=
  if use = .compressedKey then position + 1 - ratio else position

/-- The token at `position` has something to turn: a compressed key only at the end of a group. -/
def RopeUse.Applies (use : RopeUse) (ratio position : Nat) : Prop :=
  use = .compressedKey → 0 < ratio ∧ (position + 1) % ratio = 0

section Tables

variable (log : K → K) (pi : K) (P : Power K) (cfg : RopeConfig K)

/-! ## `precompute_freqs_cis` -/

/-- `find_correction_dim`. -/
def findCorrectionDim (numRotations : K) (dim : Nat) (base maxSeqLen : K) : K :=
  dim * log (maxSeqLen / (numRotations * 2 * pi)) / (2 * log base)

/-- `find_correction_range`. -/
def findCorrectionRange (lowRot highRot : K) (dim : Nat) (base maxSeqLen : K) : ℤ × ℤ :=
  (max ⌊findCorrectionDim log pi lowRot dim base maxSeqLen⌋ 0,
    min ⌈findCorrectionDim log pi highRot dim base maxSeqLen⌉ (dim - 1))

/-- `linear_ramp_factor` at an index. -/
def linearRampFactor (lo hi : ℤ) (i : Nat) : K :=
  max 0 (min 1 (((i : K) - lo) / ((if lo = hi then (hi : K) + 1 / 1000 else hi) - lo)))

/-- A frequency of `precompute_freqs_cis`. -/
def precomputeFreqs (dim originalSeqLen : Nat) (base factor betaFast betaSlow : K) (i : Nat) : K :=
  let freq := 1 / P.pow base ((2 * i : Nat) / dim)
  if 0 < originalSeqLen then
    let (low, high) := findCorrectionRange log pi betaFast betaSlow dim base originalSeqLen
    let smooth := 1 - linearRampFactor low high i
    freq / factor * (1 - smooth) + freq * smooth
  else freq

/-- The angle in a layer of the Python model. -/
def pythonAngle (ratio : Nat) (use : RopeUse) (position i : Nat) : K :=
  use.angled ratio position *
    if ratio ≠ 0 then
      precomputeFreqs log pi P cfg.ropeDim cfg.originalSeqLen cfg.compressRopeTheta cfg.ropeFactor
        cfg.betaFast cfg.betaSlow i
    else
      precomputeFreqs log pi P cfg.ropeDim 0 cfg.ropeTheta cfg.ropeFactor cfg.betaFast cfg.betaSlow i

/-! ## The C++ engines -/

/-- `rope_inv_freqs_for`, whose table is computed once for a layer and kind. -/
def ropeInvFreqsFor (useCompress : Bool) (theta : K) (i : Nat) : K :=
  let host := P.pow theta (-2 * i / cfg.ropeDim)
  if useCompress then
    let originalSeqLen : K := if cfg.originalSeqLen = 0 then 65536 else cfg.originalSeqLen
    let factor := if 0 < cfg.ropeFactor then cfg.ropeFactor else 16
    let betaFast := if 0 < cfg.betaFast then cfg.betaFast else 32
    let betaSlow := if 0 < cfg.betaSlow then cfg.betaSlow else 1
    let correctionDim := fun numRotations =>
      cfg.ropeDim * log (originalSeqLen / (numRotations * 2 * pi)) / (2 * log theta)
    let low : K := max (⌊correctionDim betaFast⌋ : K) 0
    let high : K := min (⌈correctionDim betaSlow⌉ : K) (cfg.ropeDim - 1)
    let high := if low = high then high + 1 / 1000 else high
    let pairDim : K := (2 * i : Nat)
    let t := max 0 (min 1 ((pairDim - low) / (high - low)))
    let smooth := 1 - t
    host / factor * (1 - smooth) + host * smooth
  else host

/-- The angle in a layer of the safetensors engine, whose kernels take the table. -/
def safetensorsAngle (ratio : Nat) (use : RopeUse) (position i : Nat) : K :=
  use.angled ratio position *
    if use = .compressedKey then
      ropeInvFreqsFor log pi P cfg true
        (if cfg.compressRopeTheta = 0 then 160000 else cfg.compressRopeTheta) i
    else
      ropeInvFreqsFor log pi P cfg (ratio ≠ 0)
        (if ratio = 0 then cfg.ropeTheta else cfg.compressRopeTheta) i

omit [FloorRing K] in
/-- The angle in a layer of `run_gguf_generate`, whose kernels take a theta. The `compress_rope_theta`
of the layer's dimensions is never set there. -/
def ggufAngle (ratio : Nat) (use : RopeUse) (position i : Nat) : K :=
  let compressRopeTheta : K := 0
  let theta :=
    if use = .compressedKey then
      if 0 < compressRopeTheta then compressRopeTheta else cfg.ropeTheta
    else cfg.ropeTheta
  use.angled ratio position / P.pow theta ((2 * i : Nat) / cfg.ropeDim)

/-- Both engines turn every pair by the angle of the Python model, in a layer of this ratio. -/
def SameAngles (ratio : Nat) : Prop :=
  ∀ (use : RopeUse) (position i : Nat), use.Applies ratio position → i < cfg.ropeDim / 2 →
    safetensorsAngle log pi P cfg ratio use position i = pythonAngle log pi P cfg ratio use position i ∧
      ggufAngle P cfg ratio use position i = pythonAngle log pi P cfg ratio use position i

/-- The YaRN ramp of a layer that compresses starts behind the last pair: `find_correction_range` of
the original length, or of 65536. -/
def RampFlat : Prop :=
  let (low, high) := findCorrectionRange log pi cfg.betaFast cfg.betaSlow cfg.ropeDim
    cfg.compressRopeTheta (if cfg.originalSeqLen = 0 then 65536 else cfg.originalSeqLen)
  if low ≤ high then (cfg.ropeDim : ℤ) ≤ low + 2 else low = 0

end Tables

section Ramp

variable [IsStrictOrderedRing K] {lo hi : ℤ} {i : Nat}

omit [FloorRing K] in
lemma clamp_eq_zero {x : K} : max 0 (min 1 x) = 0 ↔ x ≤ 0 := by
  rw [max_eq_left_iff, min_le_iff]
  exact or_iff_right (not_le.mpr one_pos)

omit [FloorRing K] in
lemma ramp_rising (le : lo ≤ hi) : (linearRampFactor lo hi i : K) = 0 ↔ (i : ℤ) ≤ lo := by
  have wide : (0 : K) < (if lo = hi then (hi : K) + 1 / 1000 else hi) - lo := by
    split_ifs with same
    · rw [same]
      norm_num
    · exact sub_pos.mpr (Int.cast_lt.mpr (lt_of_le_of_ne le same))
  rw [linearRampFactor, clamp_eq_zero, div_le_iff₀ wide, zero_mul, sub_nonpos]
  exact_mod_cast Iff.rfl

omit [FloorRing K] in
lemma ramp_falling (lt : hi < lo) : (linearRampFactor lo hi i : K) = 0 ↔ lo ≤ (i : ℤ) := by
  have wide : (if lo = hi then (hi : K) + 1 / 1000 else hi) - lo < 0 := by
    rw [if_neg lt.ne']
    exact sub_neg.mpr (Int.cast_lt.mpr lt)
  rw [linearRampFactor, clamp_eq_zero, div_le_iff_of_neg wide, zero_mul, sub_nonneg]
  exact_mod_cast Iff.rfl

omit [FloorRing K] in
lemma ramp_flat (hi : ℤ) {n : Nat} (some_pair : 0 < n) (nonneg : 0 ≤ lo) :
    (∀ i, i < n → (linearRampFactor lo hi (2 * i) : K) = 0) ↔
      if lo ≤ hi then ((2 * n : Nat) : ℤ) ≤ lo + 2 else lo = 0 := by
  split_ifs with le
  · simp only [ramp_rising le]
    constructor
    · intro all
      have last := all (n - 1) (by omega)
      omega
    · intro start i lt
      omega
  · simp only [ramp_falling (not_le.mp le)]
    constructor
    · intro all
      have first := all 0 some_pair
      omega
    · intro zero i _
      omega

omit [FloorRing K] in
lemma ramp_flat_all {n : Nat} (nonneg : 0 ≤ lo)
    (flat : if lo ≤ hi then ((2 * n : Nat) : ℤ) ≤ lo + 2 else lo = 0) (lt : i < n) :
    (linearRampFactor lo hi i : K) = 0 := by
  split_ifs at flat with le
  · rw [ramp_rising le]
    omega
  · rw [ramp_falling (not_le.mp le)]
    omega

end Ramp

section Frequencies

variable {log : K → K} {pi : K} {P : Power K} {cfg : RopeConfig K}

/-- By how much YaRN changes the frequency at an index of the ramp. -/
def stretch (cfg : RopeConfig K) (lo hi : ℤ) (j : Nat) : K :=
  1 - linearRampFactor lo hi j * (1 - 1 / cfg.ropeFactor)

/-- The correction range for an original length. -/
def yarnRange (log : K → K) (pi : K) (cfg : RopeConfig K) (originalSeqLen : K) : ℤ × ℤ :=
  findCorrectionRange log pi cfg.betaFast cfg.betaSlow cfg.ropeDim cfg.compressRopeTheta
    originalSeqLen

/-- The original length that `rope_inv_freqs_for` takes. -/
def givenLength (cfg : RopeConfig K) : K :=
  if cfg.originalSeqLen = 0 then 65536 else cfg.originalSeqLen

omit [LinearOrder K] [FloorRing K] in
lemma mix_eq (freq r factor : K) :
    freq / factor * (1 - (1 - r)) + freq * (1 - r) = freq * (1 - r * (1 - 1 / factor)) := by
  ring

lemma precompute_plain (i : Nat) :
    precomputeFreqs log pi P cfg.ropeDim 0 cfg.ropeTheta cfg.ropeFactor cfg.betaFast cfg.betaSlow i =
      1 / P.pow cfg.ropeTheta ((2 * i : Nat) / cfg.ropeDim) := rfl

lemma precompute_compress (i : Nat) :
    precomputeFreqs log pi P cfg.ropeDim cfg.originalSeqLen cfg.compressRopeTheta cfg.ropeFactor
        cfg.betaFast cfg.betaSlow i =
      1 / P.pow cfg.compressRopeTheta ((2 * i : Nat) / cfg.ropeDim) *
        if cfg.originalSeqLen = 0 then 1
        else stretch cfg (yarnRange log pi cfg (givenLength cfg)).1
          (yarnRange log pi cfg (givenLength cfg)).2 i := by
  rw [precomputeFreqs, givenLength]
  by_cases none : cfg.originalSeqLen = 0
  · rw [if_neg (by omega), if_pos none, mul_one]
  · rw [if_pos (by omega), if_neg none, if_neg none]
    exact mix_eq _ _ _

lemma ropeInvFreqsFor_plain {theta : K} (pos : 0 < theta) (i : Nat) :
    ropeInvFreqsFor log pi P cfg false theta i = 1 / P.pow theta ((2 * i : Nat) / cfg.ropeDim) := by
  have exponent : -2 * (i : K) / cfg.ropeDim = -(((2 * i : Nat) : K) / cfg.ropeDim) := by
    push_cast
    ring
  rw [ropeInvFreqsFor]
  dsimp only
  rw [if_neg (by decide), exponent, P.pow_neg _ _ pos]

lemma ropeInvFreqsFor_compress [IsStrictOrderedRing K] (i : Nat) :
    ropeInvFreqsFor log pi P cfg true cfg.compressRopeTheta i =
      1 / P.pow cfg.compressRopeTheta ((2 * i : Nat) / cfg.ropeDim) *
        stretch cfg (yarnRange log pi cfg (givenLength cfg)).1
          (yarnRange log pi cfg (givenLength cfg)).2 (2 * i) := by
  have exponent : -2 * (i : K) / cfg.ropeDim = -(((2 * i : Nat) : K) / cfg.ropeDim) := by
    push_cast
    ring
  rw [ropeInvFreqsFor]
  dsimp only
  rw [if_pos rfl, exponent, P.pow_neg _ _ cfg.compressRopeTheta_pos, if_pos cfg.ropeFactor_pos,
    if_pos cfg.betaFast_pos, if_pos cfg.betaSlow_pos, mix_eq, stretch]
  have low : ((yarnRange log pi cfg (givenLength cfg)).1 : K) =
      max (⌊findCorrectionDim log pi cfg.betaFast cfg.ropeDim cfg.compressRopeTheta
        (givenLength cfg)⌋ : K) 0 := by
    rw [yarnRange, findCorrectionRange, Int.cast_max, Int.cast_zero]
  have high : ((yarnRange log pi cfg (givenLength cfg)).2 : K) =
      min (⌈findCorrectionDim log pi cfg.betaSlow cfg.ropeDim cfg.compressRopeTheta
        (givenLength cfg)⌉ : K) (cfg.ropeDim - 1) := by
    rw [yarnRange, findCorrectionRange, Int.cast_min, Int.cast_sub, Int.cast_natCast, Int.cast_one]
  simp only [linearRampFactor, ← Int.cast_inj (α := K), low, high]
  rfl

end Frequencies

section Agreement

variable [IsStrictOrderedRing K] {log : K → K} {pi : K} {P : Power K} {cfg : RopeConfig K}
  {ratio : Nat}

/-- A power that is one for the base `theta`, and for the others a given value at positive exponents. -/
def growing (theta v : K) (pos : 0 < v) : Power K where
  pow b x := if b = theta then 1 else if 0 < x then v else if x < 0 then 1 / v else 1
  pow_pos b x _ := by
    split_ifs
    · exact one_pos
    · exact pos
    · exact one_div_pos.mpr pos
    · exact one_pos
  pow_zero b _ := by simp
  pow_neg b x _ := by
    rcases lt_trichotomy x 0 with lt | rfl | gt
    · by_cases here : b = theta
      · simp [here]
      · simp [here, lt, lt.not_gt]
    · simp
    · by_cases here : b = theta
      · simp [here]
      · simp [here, gt, gt.not_gt]

omit [IsStrictOrderedRing K] in
lemma sameAngles_plain : SameAngles log pi P cfg 0 := by
  intro use position i applies _
  have other : use ≠ .compressedKey := fun compressed => absurd (applies compressed).1 (by decide)
  constructor
  · rw [safetensorsAngle, if_neg other, if_pos rfl, pythonAngle, if_neg (not_not.mpr rfl),
      precompute_plain]
    exact congrArg _ (ropeInvFreqsFor_plain cfg.ropeTheta_pos i)
  · rw [ggufAngle, pythonAngle, if_neg (not_not.mpr rfl), precompute_plain, mul_one_div]
    rw [if_neg other]

variable (log pi cfg) in
/-- The changes of the Python model and of the safetensors engine at a pair. -/
def pythonStretch (i : Nat) : K :=
  if cfg.originalSeqLen = 0 then 1
  else stretch cfg (yarnRange log pi cfg (givenLength cfg)).1
    (yarnRange log pi cfg (givenLength cfg)).2 i

variable (log pi cfg) in
def engineStretch (i : Nat) : K :=
  stretch cfg (yarnRange log pi cfg (givenLength cfg)).1
    (yarnRange log pi cfg (givenLength cfg)).2 (2 * i)

variable (log pi P cfg) in
lemma angles_compress (compress : ratio ≠ 0) (use : RopeUse) (position i : Nat) :
    pythonAngle log pi P cfg ratio use position i = use.angled ratio position *
        (1 / P.pow cfg.compressRopeTheta ((2 * i : Nat) / cfg.ropeDim) * pythonStretch log pi cfg i) ∧
      safetensorsAngle log pi P cfg ratio use position i = use.angled ratio position *
        (1 / P.pow cfg.compressRopeTheta ((2 * i : Nat) / cfg.ropeDim) * engineStretch log pi cfg i) ∧
      ggufAngle P cfg ratio use position i = use.angled ratio position *
        (1 / P.pow cfg.ropeTheta ((2 * i : Nat) / cfg.ropeDim)) := by
  refine ⟨?_, ?_, ?_⟩
  · rw [pythonAngle, if_pos compress, precompute_compress, pythonStretch]
  · have theta : (if cfg.compressRopeTheta = 0 then 160000 else cfg.compressRopeTheta) =
        cfg.compressRopeTheta := if_neg cfg.compressRopeTheta_pos.ne'
    rw [safetensorsAngle, theta, if_neg compress, decide_eq_true compress, ite_self,
      ropeInvFreqsFor_compress, engineStretch]
  · rw [ggufAngle]
    simp only [lt_irrefl, if_false, ite_self, mul_one_div]

lemma sameAngles_compress (compress : ratio ≠ 0) :
    (∀ P : Power K, SameAngles log pi P cfg ratio) ↔
      (cfg.compressRopeTheta = cfg.ropeTheta ∨ cfg.ropeDim = 2) ∧
        ∀ i, i < cfg.ropeDim / 2 → pythonStretch log pi cfg i = 1 ∧ engineStretch log pi cfg i = 1 := by
  have dim_pos : (0 : K) < cfg.ropeDim := Nat.cast_pos.mpr cfg.ropeDim_pos
  have some_pair : 0 < cfg.ropeDim / 2 := by
    have := cfg.ropeDim_pos
    have := cfg.ropeDim_even
    omega
  constructor
  · intro all
    -- queries at position 1
    have first : ∀ (P : Power K) i, i < cfg.ropeDim / 2 →
        engineStretch log pi cfg i = pythonStretch log pi cfg i ∧
        1 / P.pow cfg.ropeTheta ((2 * i : Nat) / cfg.ropeDim) =
          1 / P.pow cfg.compressRopeTheta ((2 * i : Nat) / cfg.ropeDim) *
            pythonStretch log pi cfg i := by
      intro P i lt
      obtain ⟨same, same'⟩ := all P .query 1 i (fun query => nomatch query) lt
      obtain ⟨python, engine, gguf⟩ := angles_compress log pi P cfg compress .query 1 i
      have angled : ((RopeUse.query.angled ratio 1 : Nat) : K) = 1 := Nat.cast_one
      rw [python, engine, angled, one_mul, one_mul] at same
      rw [python, gguf, angled, one_mul, one_mul] at same'
      have positive := P.pow_pos cfg.compressRopeTheta ((2 * i : Nat) / cfg.ropeDim)
        cfg.compressRopeTheta_pos
      exact ⟨mul_left_cancel₀ (one_div_pos.mpr positive).ne' same, same'⟩
    have flat : ∀ i, i < cfg.ropeDim / 2 →
        pythonStretch log pi cfg i = 1 ∧ engineStretch log pi cfg i = 1 := by
      intro i lt
      -- a power that is one everywhere
      obtain ⟨same, one⟩ := first (growing 0 1 one_pos) i lt
      have python : pythonStretch log pi cfg i = 1 := by simpa [growing] using one.symm
      exact ⟨python, same.trans python⟩
    refine ⟨?_, flat⟩
    by_contra neither
    obtain ⟨ne, pairs⟩ := not_or.mp neither
    have lt : 1 < cfg.ropeDim / 2 := by
      have := cfg.ropeDim_even
      omega
    -- a power that tells the two thetas apart
    have differ := (first (growing cfg.ropeTheta 2 two_pos) 1 lt).2
    have exponent : (0 : K) < ((2 * 1 : Nat) : K) / cfg.ropeDim :=
      div_pos (Nat.cast_pos.mpr (by decide)) dim_pos
    rw [(flat 1 lt).1] at differ
    simp only [growing, if_true, if_neg ne, if_pos exponent] at differ
    norm_num at differ
  · rintro ⟨theta, flat⟩ P use position i _ lt
    obtain ⟨python, engine, gguf⟩ := angles_compress log pi P cfg compress use position i
    obtain ⟨one, one'⟩ := flat i lt
    rw [python, engine, gguf, one, one', mul_one]
    refine ⟨rfl, ?_⟩
    rcases theta with same | pairs
    · rw [same]
    · obtain rfl : i = 0 := by omega
      rw [Nat.mul_zero, Nat.cast_zero, zero_div, P.pow_zero _ cfg.ropeTheta_pos,
        P.pow_zero _ cfg.compressRopeTheta_pos]

lemma SameAngles.of_query (compress : ratio ≠ 0) (position : Nat) (later : 0 < position)
    (same : ∀ i, i < cfg.ropeDim / 2 →
      safetensorsAngle log pi P cfg ratio .query position i =
          pythonAngle log pi P cfg ratio .query position i ∧
        ggufAngle P cfg ratio .query position i = pythonAngle log pi P cfg ratio .query position i) :
    SameAngles log pi P cfg ratio := by
  intro use position' i _ lt
  obtain ⟨engine, gguf⟩ := same i lt
  obtain ⟨python, engine', gguf'⟩ := angles_compress log pi P cfg compress .query position i
  rw [python, engine'] at engine
  rw [python, gguf'] at gguf
  have nonzero : ((RopeUse.query.angled ratio position : Nat) : K) ≠ 0 :=
    Nat.cast_ne_zero.mpr later.ne'
  obtain ⟨python, engine', gguf'⟩ := angles_compress log pi P cfg compress use position' i
  rw [python, engine', gguf', mul_left_cancel₀ nonzero engine, mul_left_cancel₀ nonzero gguf]
  exact ⟨rfl, rfl⟩

omit [FloorRing K] in
lemma stretch_eq_one {lo hi : ℤ} {j : Nat} :
    stretch cfg lo hi j = 1 ↔ (linearRampFactor lo hi j : K) = 0 ∨ cfg.ropeFactor = 1 := by
  rw [stretch, sub_eq_self, mul_eq_zero, sub_eq_zero, eq_comm (a := (1 : K)),
    div_eq_one_iff_eq cfg.ropeFactor_pos.ne', eq_comm (a := (1 : K))]

lemma stretches_iff :
    (∀ i, i < cfg.ropeDim / 2 → pythonStretch log pi cfg i = 1 ∧ engineStretch log pi cfg i = 1) ↔
      cfg.ropeFactor = 1 ∨ RampFlat log pi cfg := by
  have some_pair : 0 < cfg.ropeDim / 2 := by
    have := cfg.ropeDim_pos
    have := cfg.ropeDim_even
    omega
  have dim : 2 * (cfg.ropeDim / 2) = cfg.ropeDim := by
    have := cfg.ropeDim_even
    omega
  have nonneg : 0 ≤ (yarnRange log pi cfg (givenLength cfg)).1 := le_max_right _ _
  have flat := ramp_flat (K := K) (yarnRange log pi cfg (givenLength cfg)).2 some_pair nonneg
  rw [dim] at flat
  constructor
  · intro ones
    by_contra neither
    obtain ⟨factor, steep⟩ := not_or.mp neither
    exact steep (flat.mp fun i lt => (stretch_eq_one.mp (ones i lt).2).resolve_right factor)
  · intro quiet i lt
    have even : engineStretch log pi cfg i = 1 :=
      stretch_eq_one.mpr (quiet.symm.imp_left fun start => flat.mpr start i lt)
    refine ⟨?_, even⟩
    rw [pythonStretch]
    split_ifs with none
    · rfl
    · refine stretch_eq_one.mpr (quiet.symm.imp_left fun start => ramp_flat_all nonneg ?_ lt)
      rw [dim]
      exact start

/-- Which layers are turned alike, for every power: those without compression, and with compression
those of a checkpoint whose thetas are equal, or which has one pair, and whose YaRN factor is one or
whose ramp starts behind the last pair. -/
theorem ropes_iff (log : K → K) (pi : K) (cfg : RopeConfig K) (ratio : Nat) :
    (∀ P : Power K, SameAngles log pi P cfg ratio) ↔
      ratio = 0 ∨ (cfg.compressRopeTheta = cfg.ropeTheta ∨ cfg.ropeDim = 2) ∧
        (cfg.ropeFactor = 1 ∨ RampFlat log pi cfg) := by
  rcases eq_or_ne ratio 0 with rfl | compress
  · exact iff_of_true (fun _ => sameAngles_plain) (Or.inl rfl)
  · rw [sameAngles_compress compress, stretches_iff, or_iff_right compress]

end Agreement

/-! ## The checkpoint of the repository -/

/-- The powers of the reals. -/
noncomputable def realPower : Power ℝ where
  pow b x := b ^ x
  pow_pos _ x pos := Real.rpow_pos_of_pos pos x
  pow_zero b _ := Real.rpow_zero b
  pow_neg b x pos := by rw [Real.rpow_neg pos.le, one_div]

/-- The values of `configs/config.json`. -/
noncomputable def checkpointRope : RopeConfig ℝ where
  ropeDim := 64
  ropeTheta := 10000
  compressRopeTheta := 160000
  ropeFactor := 16
  betaFast := 32
  betaSlow := 1
  originalSeqLen := 65536
  ropeDim_pos := by decide
  ropeDim_even := by decide
  ropeTheta_pos := by norm_num
  compressRopeTheta_pos := by norm_num
  ropeFactor_pos := by norm_num
  betaFast_pos := by norm_num
  betaSlow_pos := by norm_num

/-- A layer without compression. -/
theorem ropes_iff_plain : SameAngles Real.log Real.pi realPower checkpointRope 0 :=
  (ropes_iff Real.log Real.pi checkpointRope 0).mpr (Or.inl rfl) realPower

/-- A layer of ratio 4: with the real functions, the second pair of the query at position 1 is turned
further by the GGUF engine. -/
theorem angles_differ : ¬ SameAngles Real.log Real.pi realPower checkpointRope 4 := by
  intro same
  have here := (same .query 1 1 (fun query => nomatch query) (by decide)).2
  obtain ⟨python, -, gguf⟩ := angles_compress Real.log Real.pi realPower checkpointRope
    (by decide : 4 ≠ 0) .query 1 1
  rw [python, gguf] at here
  have angled : ((RopeUse.query.angled 4 1 : Nat) : ℝ) = 1 := Nat.cast_one
  rw [angled, one_mul, one_mul] at here
  -- YaRN only slows a pair down
  have ramp : (0 : ℝ) ≤ linearRampFactor (yarnRange Real.log Real.pi checkpointRope
      (givenLength checkpointRope)).1 (yarnRange Real.log Real.pi checkpointRope
      (givenLength checkpointRope)).2 1 := le_max_left _ _
  have slower : pythonStretch Real.log Real.pi checkpointRope 1 ≤ 1 := by
    rw [pythonStretch, if_neg (by decide), stretch]
    have factor : (1 : ℝ) - 1 / checkpointRope.ropeFactor = 15 / 16 := by
      show (1 : ℝ) - 1 / 16 = 15 / 16
      norm_num
    rw [factor]
    linarith
  have exponent : (0 : ℝ) < ((2 * 1 : Nat) : ℝ) / checkpointRope.ropeDim :=
    div_pos (Nat.cast_pos.mpr (by decide)) (Nat.cast_pos.mpr checkpointRope.ropeDim_pos)
  have base : checkpointRope.ropeTheta < checkpointRope.compressRopeTheta := by
    show (10000 : ℝ) < 160000
    norm_num
  have power := Real.rpow_lt_rpow checkpointRope.ropeTheta_pos.le base exponent
  have positive := Real.rpow_pos_of_pos checkpointRope.ropeTheta_pos
    (((2 * 1 : Nat) : ℝ) / checkpointRope.ropeDim)
  refine absurd here (ne_of_gt ?_)
  calc 1 / realPower.pow checkpointRope.compressRopeTheta (((2 * 1 : Nat) : ℝ) / _) *
        pythonStretch Real.log Real.pi checkpointRope 1
      ≤ 1 / realPower.pow checkpointRope.compressRopeTheta (((2 * 1 : Nat) : ℝ) / _) :=
        mul_le_of_le_one_right (one_div_pos.mpr (positive.trans power)).le slower
    _ < 1 / realPower.pow checkpointRope.ropeTheta (((2 * 1 : Nat) : ℝ) / _) :=
        one_div_lt_one_div_of_lt positive power

end PocketMoE.Engine
