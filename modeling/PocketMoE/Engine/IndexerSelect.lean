import Mathlib.Data.Rat.Floor
import PocketMoE.Engine.RopeTables
import PocketMoE.Runtime.Indexer

/-!
# The cells that the engines select

`Indexer.forward` (`runtime.py`) against the indexer part of the two C++ engines
(`dsv4_engine.cpp`, lines 3400 to 3432 and 4540 to 4572) and its kernels (`cuda_ops.cu`), at a decode
position of a layer of ratio 4 and in exact arithmetic. The query projections, Hadamard and
quantisation, the powers and the functions of an angle are arbitrary; equal scores go to the lower
cell on both sides.

The head weights of the engines are projected from the row before `attn_norm`, those of Python from
the normed row. `indexersAgree_iff` says for which models the same cells are selected, whatever the
weights and inputs.
-/

namespace PocketMoE.Engine
open PocketMoE.Lib PocketMoE.Runtime

variable {K : Type} [Field K] [LinearOrder K] [FloorRing K]

/-- What a model says about the indexers of its layers, and the gains of `attn_norm`. -/
structure IndexerConfig (K : Type) [Field K] [LinearOrder K] where
  rope : RopeConfig K
  dim : Nat
  indexNHeads : Nat
  indexHeadDim : Nat
  indexTopk : Nat
  attnNorm : Nat → K
  dim_pos : 0 < dim
  heads_pos : 0 < indexNHeads
  rope_fits : rope.ropeDim ≤ indexHeadDim

/-- The weights of an indexer, and the functions both sides share: `indexQ` goes from the normed row
to the heads before the rotation (`wq_a`, `q_norm`, `wq_b`), `quantise` is Hadamard and FP4 on the
row of a head. -/
structure IndexerWeights (K : Type) [Field K] [LinearOrder K] where
  weightsProj : Nat → Nat → K
  indexQ : (Nat → K) → Nat → Nat → K
  quantise : (Nat → K) → Nat → K
  rsqrt : K → K
  rsqrt_pos : ∀ x, 0 < x → 0 < rsqrt x
  cos : K → K
  sin : K → K
  power : Power K

section Model

variable (log : K → K) (pi : K) (m : IndexerConfig K) (w : IndexerWeights K)

/-! ## What both sides compute -/

/-- What a row is scaled by in `attn_norm`. -/
def normScale (x : Nat → K) : K :=
  w.rsqrt ((∑ d ∈ Finset.range m.dim, x d ^ 2) / m.dim + 1 / 1000000)

/-- `attn_norm`. -/
def normedRow (x : Nat → K) : Nat → K := fun d => x d * normScale m w x * m.attnNorm d

/-- The last `rope_dim` entries of a head are turned, pair by pair. -/
def rotate (angle : Nat → K) (row : Nat → K) : Nat → K := fun d =>
  let start := m.indexHeadDim - m.rope.ropeDim
  let i := (d - start) / 2
  let a := row (start + 2 * i)
  let b := row (start + 2 * i + 1)
  if start ≤ d ∧ d < m.indexHeadDim then
    if (d - start) % 2 = 0 then a * w.cos (angle i) - b * w.sin (angle i)
    else a * w.sin (angle i) + b * w.cos (angle i)
  else row d

/-- The queries of the heads for a table of angles. -/
def indexQueries (angle : Nat → K) (x : Nat → K) : Nat → Nat → K := fun h =>
  w.quantise (rotate m w angle (w.indexQ (normedRow m w x) h))

/-! ## `Indexer.forward` -/

/-- `weights_proj` with its scale. -/
def pythonHeadWeights (x : Nat → K) (h : Nat) : K :=
  (∑ d ∈ Finset.range m.dim, w.weightsProj h d * normedRow m w x d) *
    (w.rsqrt m.indexHeadDim * w.rsqrt m.indexNHeads)

/-- `index_score` of a cell for the queries and weights of the heads. -/
def pythonScore (q : (Nat → Nat → K) × (Nat → K)) (cell : Nat → K) : K :=
  ∑ h ∈ Finset.range m.indexNHeads,
    max 0 (∑ d ∈ Finset.range m.indexHeadDim, q.1 h d * cell d) * q.2 h

/-- The indexer of a layer, without its fused kernel. -/
def pythonIndexer : Indexer ((Nat → Nat → K) × (Nat → K)) (Nat → K) K where
  compressRatio := 4
  ratio_pos := Indexer.ratio_four_pos
  indexTopk := m.indexTopk
  prefillChunkTokens := 512
  chunk_pos := Indexer.chunk_512_pos
  fusedC4IndexerEnabled := false
  scoresReduced := false
  score := pythonScore m
  fusedScore := pythonScore m
  topk := .repeatedMax _
  c4Topk := .repeatedMax _

/-- The index row of a decoded token; the compressed cells start behind the window. -/
def pythonRow (window : Nat) (x : Nat → K) (cells : Nat → Nat → K) (position : Nat) : List Int :=
  let q := indexQueries m w (fun i => pythonAngle log pi w.power m.rope 4 .query position i) x
  (((pythonIndexer m).forward [(q, pythonHeadWeights m w x)] cells position window 0)[0]?).getD []

/-! ## The engines -/

/-- `indexer_head_weights_kernel` on the row before the norm. -/
def headWeights (x : Nat → K) (h : Nat) : K :=
  (∑ d ∈ Finset.range m.dim, w.weightsProj h d * x d) *
    w.rsqrt ((m.indexNHeads * m.indexHeadDim : Nat) : K)

/-- `indexer_score_kernel`, with 256 threads for the entries of a head. -/
def engineScore (q : Nat → Nat → K) (weights : Nat → K) (cell : Nat → K) : K :=
  ∑ h ∈ Finset.range m.indexNHeads,
    let dot := ∑ d ∈ Finset.range (min m.indexHeadDim 256), q h d * cell d
    if 0 < dot then dot * weights h else 0

/-- `indexer_select_topk_cuda`. -/
def indexerSelectTopk (q : Nat → Nat → K) (x : Nat → K) (cells : Nat → Nat → K)
    (compressedCount keep window : Nat) : List Int :=
  ((TopK.repeatedMax K).select ((List.range compressedCount).map fun c =>
    engineScore m q (headWeights m w x) (cells c)) keep).map fun c => ((window + c : Nat) : Int)

/-- The compressed part of the index row of a token in the safetensors engine. -/
def safetensorsRow (window : Nat) (x : Nat → K) (cells : Nat → Nat → K) (position : Nat) :
    List Int :=
  let q := indexQueries m w (fun i => safetensorsAngle log pi w.power m.rope 4 .query position i) x
  let compressedReady := (position + 1) / 4
  if 0 < compressedReady then
    let keep := min compressedReady (max 1 m.indexTopk)
    indexerSelectTopk m w q x cells compressedReady keep window
  else []

omit [FloorRing K] in
/-- The compressed part of the index row of a token in the GGUF engine, with room for the cells of
`totalPositions`. -/
def ggufRow (window totalPositions : Nat) (x : Nat → K) (cells : Nat → Nat → K) (position : Nat) :
    List Int :=
  let q := indexQueries m w (fun i => ggufAngle w.power m.rope 4 .query position i) x
  let compressedReady := (position + 1) / 4
  let compressedCap := (max 1 totalPositions + 4 - 1) / 4
  if 0 < compressedReady ∧ 0 < m.indexTopk then
    let available := min compressedReady compressedCap
    let keep := min available m.indexTopk
    indexerSelectTopk m w q x cells available keep window
  else
    (List.range (min compressedReady compressedCap)).map fun c => ((window + c : Nat) : Int)

/-- Both engines select the cells that Python selects, for all weights and inputs, at all decode
positions of all runs. -/
def IndexersAgree : Prop :=
  ∀ (w : IndexerWeights K) (window totalPositions : Nat) (x : Nat → K) (cells : Nat → Nat → K)
    (position : Nat), position < totalPositions → ∀ entry : Int,
      (entry ∈ safetensorsRow log pi m w window x cells position ↔
          entry ∈ pythonRow log pi m w window x cells position) ∧
        (entry ∈ ggufRow m w window totalPositions x cells position ↔
          entry ∈ pythonRow log pi m w window x cells position)

end Model

section Selection

variable {log : K → K} {pi : K} {m : IndexerConfig K} {w : IndexerWeights K} {window position : Nat}
  {x : Nat → K} {cells : Nat → Nat → K}

lemma pythonRow_eq : pythonRow log pi m w window x cells position =
    ((TopK.repeatedMax K).select ((List.range ((position + 1) / 4)).map fun c =>
        pythonScore m (indexQueries m w
          (fun i => pythonAngle log pi w.power m.rope 4 .query position i) x,
          pythonHeadWeights m w x) (cells c))
      (min m.indexTopk ((position + 1) / 4))).map fun c => ((window + c : Nat) : Int) := by
  have plain : ¬ (pythonIndexer m).takesFused position 1 := fun fused => Bool.false_ne_true fused.1
  rw [pythonRow, Indexer.forward_plain plain (Nat.one_pos), Option.getD_some]
  simp only [pythonIndexer, List.length_singleton, List.getElem_cons_zero, Nat.add_zero]
  generalize pythonHeadWeights m w x = weights
  generalize indexQueries m w _ x = q
  generalize (position + 1) / 4 = n
  have scores : (List.range n).map (fun t => ((pythonScore m (q, weights) (cells t) : K) : WithBot K)) =
      ((List.range n).map fun t => pythonScore m (q, weights) (cells t)).map
        (fun score : K => (score : WithBot K)) := by
    rw [List.map_map]
    rfl
  rw [Indexer.maskScores_of_le (by simp), scores, TopK.repeatedMax_map WithBot.coe_strictMono,
    Indexer.shiftRow]
  refine List.map_congr_left fun c member => ?_
  have inside := (TopK.repeatedMax K).lt_length (by simp) member
  rw [List.length_map, List.length_range] at inside
  rw [if_neg (by omega), Nat.add_comm]

/-! ## Equal gains and equal tables -/

variable [IsStrictOrderedRing K]

lemma normScale_pos (m : IndexerConfig K) (w : IndexerWeights K) (x : Nat → K) :
    0 < normScale m w x := by
  refine w.rsqrt_pos _ (add_pos_of_nonneg_of_pos ?_ (by norm_num))
  exact div_nonneg (Finset.sum_nonneg fun d _ => sq_nonneg (x d)) (Nat.cast_nonneg _)

lemma scores_scaled {c : K} (pos : 0 < c) (gain : ∀ d, d < m.dim → m.attnNorm d = c)
    (narrow : m.indexHeadDim ≤ 256) (w : IndexerWeights K) (x : Nat → K) :
    ∃ k, 0 < k ∧ ∀ (q : Nat → Nat → K) (cell : Nat → K),
      pythonScore m (q, pythonHeadWeights m w x) cell =
        k * engineScore m q (headWeights m w x) cell := by
  have heads : (0 : K) < m.indexNHeads := Nat.cast_pos.mpr m.heads_pos
  have wide : 0 < m.indexHeadDim := Nat.lt_of_lt_of_le m.rope.ropeDim_pos m.rope_fits
  have wide' : (0 : K) < m.indexHeadDim := Nat.cast_pos.mpr wide
  have joint : 0 < w.rsqrt ((m.indexNHeads * m.indexHeadDim : Nat) : K) :=
    w.rsqrt_pos _ (Nat.cast_pos.mpr (Nat.mul_pos m.heads_pos wide))
  have apart : 0 < w.rsqrt m.indexHeadDim * w.rsqrt m.indexNHeads :=
    mul_pos (w.rsqrt_pos _ wide') (w.rsqrt_pos _ heads)
  have scale := normScale_pos m w x
  refine ⟨normScale m w x * c * (w.rsqrt m.indexHeadDim * w.rsqrt m.indexNHeads) /
    w.rsqrt ((m.indexNHeads * m.indexHeadDim : Nat) : K),
    div_pos (mul_pos (mul_pos scale pos) apart) joint, fun q cell => ?_⟩
  have sums : ∀ h, ∑ d ∈ Finset.range m.dim, w.weightsProj h d * normedRow m w x d =
      (∑ d ∈ Finset.range m.dim, w.weightsProj h d * x d) * (normScale m w x * c) := by
    intro h
    rw [Finset.sum_mul]
    refine Finset.sum_congr rfl fun d member => ?_
    rw [normedRow, gain d (Finset.mem_range.mp member)]
    ring
  rw [pythonScore, engineScore, Finset.mul_sum, Nat.min_eq_left narrow]
  refine Finset.sum_congr rfl fun h _ => ?_
  dsimp only
  rw [pythonHeadWeights, headWeights, sums]
  split_ifs with positive
  · rw [max_eq_right positive.le]
    field_simp
  · rw [max_eq_left (not_lt.mp positive), zero_mul, mul_zero]

omit [FloorRing K] [IsStrictOrderedRing K] in
lemma indexQueries_congr {angle angle' : Nat → K}
    (same : ∀ i, i < m.rope.ropeDim / 2 → angle i = angle' i) :
    indexQueries m w angle x = indexQueries m w angle' x := by
  have rows : ∀ row, rotate m w angle row = rotate m w angle' row := by
    intro row
    funext d
    rw [rotate, rotate]
    by_cases inside : m.indexHeadDim - m.rope.ropeDim ≤ d ∧ d < m.indexHeadDim
    · have fits := m.rope_fits
      have even := m.rope.ropeDim_even
      rw [if_pos inside, if_pos inside, same _ (by omega)]
    · rw [if_neg inside, if_neg inside]
  funext h
  rw [indexQueries, indexQueries, rows]

lemma indexerSelectTopk_eq {c : K} (pos : 0 < c) (gain : ∀ d, d < m.dim → m.attnNorm d = c)
    (narrow : m.indexHeadDim ≤ 256) (q : Nat → Nat → K) (n keep : Nat) :
    indexerSelectTopk m w q x cells n keep window =
      ((TopK.repeatedMax K).select ((List.range n).map fun c =>
        pythonScore m (q, pythonHeadWeights m w x) (cells c)) keep).map
          fun c => ((window + c : Nat) : Int) := by
  obtain ⟨k, scale, scores⟩ := scores_scaled pos gain narrow w x
  have scaled : (List.range n).map (fun c => pythonScore m (q, pythonHeadWeights m w x) (cells c)) =
      ((List.range n).map fun c => engineScore m q (headWeights m w x) (cells c)).map (k * ·) := by
    rw [List.map_map]
    exact List.map_congr_left fun c _ => scores q (cells c)
  have mono : StrictMono (k * · : K → K) := fun a b lt => mul_lt_mul_of_pos_left lt scale
  rw [indexerSelectTopk, scaled, TopK.repeatedMax_map mono]

lemma IndexersAgree.of_same {c : K} (some_ : 0 < m.indexTopk) (narrow : m.indexHeadDim ≤ 256)
    (pos : 0 < c) (gain : ∀ d, d < m.dim → m.attnNorm d = c)
    (angles : ∀ P : Power K, SameAngles log pi P m.rope 4) : IndexersAgree log pi m := by
  intro w window totalPositions x cells position inside entry
  have query : RopeUse.query.Applies 4 position := fun compressed => nomatch compressed
  have safetensors := indexQueries_congr (m := m) (w := w) (x := x) fun i lt =>
    (angles w.power .query position i query lt).1
  have gguf := indexQueries_congr (m := m) (w := w) (x := x) fun i lt =>
    (angles w.power .query position i query lt).2
  have room : (position + 1) / 4 ≤ (max 1 totalPositions + 4 - 1) / 4 :=
    Nat.div_le_div_right (by omega)
  rw [pythonRow_eq, safetensorsRow, ggufRow]
  dsimp only
  rw [safetensors, gguf, Nat.min_eq_left room, indexerSelectTopk_eq pos gain narrow,
    indexerSelectTopk_eq pos gain narrow, Nat.max_eq_right some_, Nat.min_comm m.indexTopk]
  rcases Nat.eq_zero_or_pos ((position + 1) / 4) with none | ready
  · rw [none, if_neg (lt_irrefl 0), if_neg (fun both => lt_irrefl 0 both.1), Nat.zero_min]
    exact ⟨Iff.rfl, Iff.rfl⟩
  · rw [if_pos ready, if_pos ⟨ready, some_⟩]
    exact ⟨Iff.rfl, Iff.rfl⟩

/-! ## Inputs that show a difference -/

/-- Weights of the first head only, and a query that is the same for all rows. -/
def probeWeights (v row : Nat → K) (quantise : (Nat → K) → Nat → K) (cos : K → K) (P : Power K) :
    IndexerWeights K where
  weightsProj h d := if h = 0 then v d else 0
  indexQ _ _ := row
  quantise := quantise
  rsqrt _ := 1
  rsqrt_pos _ _ := one_pos
  cos := cos
  sin _ := 0
  power := P

/-- Cells that grow in one column. -/
def columnCells (j c d : Nat) : K := if d = j then c + 1 else 0

omit [FloorRing K] [LinearOrder K] [IsStrictOrderedRing K] in
lemma dot_column (row : Nat → K) (n j c : Nat) :
    ∑ d ∈ Finset.range n, row d * columnCells j c d = (if j < n then row j else 0) * (c + 1) := by
  have pick : ∀ d, row d * columnCells j c d = if d = j then row d * (c + 1) else 0 := fun d => by
    rw [columnCells, mul_ite, mul_zero]
  rw [Finset.sum_congr rfl fun d _ => pick d, Finset.sum_ite_eq']
  simp only [Finset.mem_range, ite_mul, zero_mul]

omit [FloorRing K] in
lemma zero_mem_iff {k : Nat} (pos : 0 < k) (t u : K) :
    0 ∈ (TopK.repeatedMax K).select
        ((List.range (k + 1)).map fun c : Nat => max 0 (t * ((c : K) + 1)) * u) k ↔
      ¬ (0 < t ∧ 0 < u) := by
  rw [List.range_succ_eq_map, List.map_cons, List.map_map]
  have one_le : ∀ c : Nat, (1 : K) ≤ ((c + 1 : Nat) : K) + 1 := fun c => by
    have : (0 : K) ≤ ((c + 1 : Nat) : K) := Nat.cast_nonneg _
    linarith
  constructor
  · rintro chosen ⟨grows, counts⟩
    refine TopK.zero_notMem (TopK.repeatedMax K) (fun s member => ?_) (by simp) chosen
    obtain ⟨c, -, rfl⟩ := List.mem_map.mp member
    have more : (0 : K) < ((c + 1 : Nat) : K) := Nat.cast_pos.mpr (Nat.succ_pos c)
    show max 0 (t * (((0 : Nat) : K) + 1)) * u < max 0 (t * (((c + 1 : Nat) : K) + 1)) * u
    rw [Nat.cast_zero, zero_add, mul_one, max_eq_right grows.le,
      max_eq_right (mul_nonneg grows.le (zero_le_one.trans (one_le c)))]
    nlinarith [mul_pos (mul_pos grows more) counts]
  · intro flat
    refine TopK.zero_mem (fun s member => ?_) pos
    obtain ⟨c, -, rfl⟩ := List.mem_map.mp member
    show max 0 (t * (((c + 1 : Nat) : K) + 1)) * u ≤ max 0 (t * (((0 : Nat) : K) + 1)) * u
    rw [Nat.cast_zero, zero_add, mul_one]
    rcases le_or_gt t 0 with down | grows
    · rw [max_eq_left down, max_eq_left (mul_nonpos_of_nonpos_of_nonneg down
        (zero_le_one.trans (one_le c)))]
    · have loses : u ≤ 0 := not_lt.mp fun counts => flat ⟨grows, counts⟩
      have more : t ≤ max 0 (t * (((c + 1 : Nat) : K) + 1)) :=
        (le_mul_of_one_le_right grows.le (one_le c)).trans (le_max_right _ _)
      rw [max_eq_right grows.le]
      exact mul_le_mul_of_nonpos_right more loses

section Probes

variable {v row : Nat → K} {quantise : (Nat → K) → Nat → K} {cos : K → K} {P : Power K} {j : Nat}

omit [IsStrictOrderedRing K] in
lemma pythonScore_probe (q : Nat → Nat → K) (c : Nat) :
    pythonScore m (q, pythonHeadWeights m (probeWeights v row quantise cos P) x)
        (columnCells j c) =
      max 0 ((if j < m.indexHeadDim then q 0 j else 0) * ((c : K) + 1)) *
        ∑ d ∈ Finset.range m.dim, v d * normedRow m (probeWeights v row quantise cos P) x d := by
  rw [pythonScore, Finset.sum_eq_single 0]
  · have weight : pythonHeadWeights m (probeWeights v row quantise cos P) x 0 =
        ∑ d ∈ Finset.range m.dim, v d * normedRow m (probeWeights v row quantise cos P) x d := by
      simp [pythonHeadWeights, probeWeights]
    rw [dot_column]
    dsimp only
    rw [weight]
  · intro h _ other
    have silent : pythonHeadWeights m (probeWeights v row quantise cos P) x h = 0 := by
      simp [pythonHeadWeights, probeWeights, other]
    show _ * pythonHeadWeights m (probeWeights v row quantise cos P) x h = 0
    rw [silent, mul_zero]
  · intro none
    exact absurd (Finset.mem_range.mpr m.heads_pos) none

omit [IsStrictOrderedRing K] in
lemma engineScore_probe (q : Nat → Nat → K) (c : Nat) :
    engineScore m q (headWeights m (probeWeights v row quantise cos P) x) (columnCells j c) =
      max 0 ((if j < min m.indexHeadDim 256 then q 0 j else 0) * ((c : K) + 1)) *
        ∑ d ∈ Finset.range m.dim, v d * x d := by
  rw [engineScore, Finset.sum_eq_single 0]
  · have weight : headWeights m (probeWeights v row quantise cos P) x 0 =
        ∑ d ∈ Finset.range m.dim, v d * x d := by
      simp [headWeights, probeWeights]
    dsimp only
    rw [dot_column, weight]
    generalize (if j < min m.indexHeadDim 256 then q 0 j else 0) * ((c : K) + 1) = dot
    by_cases up : 0 < dot
    · rw [if_pos up, max_eq_right up.le]
    · rw [if_neg up, max_eq_left (not_lt.mp up), zero_mul]
  · intro h _ other
    have silent : headWeights m (probeWeights v row quantise cos P) x h = 0 := by
      simp [headWeights, probeWeights, other]
    dsimp only
    rw [silent, mul_zero, ite_self]
  · intro none
    exact absurd (Finset.mem_range.mpr m.heads_pos) none

omit [FloorRing K] [IsStrictOrderedRing K] in
lemma zero_mem_map {l : List Nat} : (0 : Int) ∈ (l.map fun c => ((0 + c : Nat) : Int)) ↔ 0 ∈ l := by
  constructor
  · intro member
    obtain ⟨c, here, zero⟩ := List.mem_map.mp member
    have : c = 0 := by omega
    exact this ▸ here
  · exact fun member => List.mem_map.mpr ⟨0, member, rfl⟩

lemma IndexersAgree.probe (agree : IndexersAgree log pi m) (some_ : 0 < m.indexTopk)
    (v row : Nat → K) (quantise : (Nat → K) → Nat → K) (cos : K → K) (P : Power K)
    (x : Nat → K) (j : Nat) :
    let w := probeWeights v row quantise cos P
    let position := 4 * (m.indexTopk + 1) - 1
    let python := indexQueries m w (fun i => pythonAngle log pi P m.rope 4 .query position i) x 0 j
    let safetensors :=
      indexQueries m w (fun i => safetensorsAngle log pi P m.rope 4 .query position i) x 0 j
    let gguf := indexQueries m w (fun i => ggufAngle P m.rope 4 .query position i) x 0 j
    let counts := 0 < ∑ d ∈ Finset.range m.dim, v d * normedRow m w x d
    let counts' := 0 < ∑ d ∈ Finset.range m.dim, v d * x d
    ((0 < if j < min m.indexHeadDim 256 then safetensors else 0) ∧ counts' ↔
        (0 < if j < m.indexHeadDim then python else 0) ∧ counts) ∧
      ((0 < if j < min m.indexHeadDim 256 then gguf else 0) ∧ counts' ↔
        (0 < if j < m.indexHeadDim then python else 0) ∧ counts) := by
  intro w position python safetensors gguf counts counts'
  have ready : (position + 1) / 4 = m.indexTopk + 1 := by
    show (4 * (m.indexTopk + 1) - 1 + 1) / 4 = _
    omega
  have room : (max 1 (position + 1) + 4 - 1) / 4 = m.indexTopk + 1 := by omega
  obtain ⟨first, second⟩ := agree w 0 (position + 1) x (columnCells j) position (Nat.lt_succ_self _) 0
  rw [pythonRow_eq, ready, Nat.min_eq_left (Nat.le_succ _)] at first second
  rw [safetensorsRow, ready] at first
  rw [ggufRow, ready, room] at second
  dsimp only at first second
  rw [if_pos (Nat.succ_pos _), Nat.max_eq_right some_, Nat.min_eq_right (Nat.le_succ _)] at first
  rw [if_pos ⟨Nat.succ_pos _, some_⟩, Nat.min_self, Nat.min_eq_right (Nat.le_succ _)] at second
  rw [indexerSelectTopk, zero_mem_map, zero_mem_map] at first second
  simp only [w, engineScore_probe, pythonScore_probe] at first second
  rw [zero_mem_iff some_, zero_mem_iff some_] at first second
  exact ⟨not_iff_not.mp first, not_iff_not.mp second⟩

end Probes

/-! ## What agreement needs -/

omit [IsStrictOrderedRing K] in
lemma IndexersAgree.budget (agree : IndexersAgree log pi m) (P : Power K) : 0 < m.indexTopk := by
  rcases Nat.eq_zero_or_pos m.indexTopk with none | pos
  · exfalso
    let w := probeWeights (fun _ => (0 : K)) (fun _ => 0) id id P
    obtain ⟨first, -⟩ := agree w 0 4 (fun _ => 0) (columnCells 0) 3 (by decide) 0
    rw [pythonRow_eq, safetensorsRow, none] at first
    dsimp only at first
    rw [if_pos (by decide), Nat.zero_min, indexerSelectTopk, zero_mem_map, zero_mem_map] at first
    -- one cell is ready: the engine takes it
    have chosen := first.mp (TopK.zero_mem (fun u member => by simp at member) (by decide))
    exact List.not_mem_nil chosen
  · exact pos

/-- A column of the query that every input shows. -/
def columnQuery (j d : Nat) : K := if d = j then 1 else 0

omit [FloorRing K] in
lemma gain_of_signs {n : Nat} {gain : Nat → K} (some_ : 0 < n)
    (signs : ∀ v x : Nat → K, 0 < ∑ d ∈ Finset.range n, v d * x d ↔
      0 < ∑ d ∈ Finset.range n, v d * (x d * gain d)) :
    ∃ c, 0 < c ∧ ∀ d, d < n → gain d = c := by
  have pick : ∀ (a : Nat) (f : Nat → K), a < n →
      ∑ d ∈ Finset.range n, columnQuery a d * f d = f a := by
    intro a f lt
    simp [columnQuery, lt]
  have positive : ∀ a, a < n → 0 < gain a := by
    intro a lt
    have sign := signs (columnQuery a) (fun _ => 1)
    rw [pick a _ lt, pick a _ lt, one_mul] at sign
    exact sign.mp one_pos
  -- the difference of two columns on a row of ones
  have le : ∀ a b, a < n → b < n → gain a ≤ gain b := by
    intro a b lt lt'
    have sign := signs (fun d => columnQuery a d - columnQuery b d) (fun _ => 1)
    simp only [sub_mul, Finset.sum_sub_distrib, pick a _ lt, pick b _ lt', one_mul, sub_self] at sign
    exact sub_nonpos.mp (not_lt.mp fun up => lt_irrefl _ (sign.mpr up))
  exact ⟨gain 0, positive 0 some_, fun d lt => le_antisymm (le d 0 lt some_) (le 0 d some_ lt)⟩

lemma IndexersAgree.gain (agree : IndexersAgree log pi m) (P : Power K) :
    ∃ c, 0 < c ∧ ∀ d, d < m.dim → m.attnNorm d = c := by
  have wide : 0 < m.indexHeadDim := Nat.lt_of_lt_of_le m.rope.ropeDim_pos m.rope_fits
  refine gain_of_signs m.dim_pos fun v x => ?_
  obtain ⟨first, -⟩ := agree.probe (agree.budget P) v (fun _ => 0) (fun _ => columnQuery 0) id P x 0
  have one : ∀ angle, indexQueries m (probeWeights v (fun _ => (0 : K)) (fun _ => columnQuery 0) id P)
      angle x 0 0 = 1 := fun angle => by
    show columnQuery 0 0 = (1 : K)
    exact if_pos rfl
  rw [one, one, if_pos wide, if_pos (lt_min wide (by decide))] at first
  have norm : ∑ d ∈ Finset.range m.dim, v d *
        normedRow m (probeWeights v (fun _ => 0) (fun _ => columnQuery 0) id P) x d =
      ∑ d ∈ Finset.range m.dim, v d * (x d * m.attnNorm d) := by
    refine Finset.sum_congr rfl fun d _ => ?_
    show v d * (x d * 1 * m.attnNorm d) = _
    rw [mul_one]
  rw [norm, and_iff_right one_pos, and_iff_right one_pos] at first
  exact first

omit [IsStrictOrderedRing K] in
lemma probe_counts (row : Nat → K) (quantise : (Nat → K) → Nat → K) (cos : K → K) (P : Power K) :
    ∑ d ∈ Finset.range m.dim, columnQuery 0 d * (columnQuery 0 d : K) = 1 ∧
      ∑ d ∈ Finset.range m.dim, columnQuery 0 d * normedRow m
        (probeWeights (columnQuery 0) row quantise cos P) (columnQuery 0) d = m.attnNorm 0 := by
  constructor
  · simp [columnQuery, m.dim_pos]
  · simp [columnQuery, normedRow, normScale, probeWeights, m.dim_pos]

lemma IndexersAgree.narrow (agree : IndexersAgree log pi m) (P : Power K) :
    m.indexHeadDim ≤ 256 := by
  by_contra wide
  obtain ⟨c, pos, gain⟩ := agree.gain P
  obtain ⟨first, -⟩ := agree.probe (agree.budget P) (columnQuery 0) (fun _ => 0)
    (fun _ => columnQuery 256) id P (columnQuery 0) 256
  obtain ⟨counts, counts'⟩ := probe_counts (m := m) (fun _ => (0 : K)) (fun _ => columnQuery 256) id P
  have one : ∀ angle, indexQueries m (probeWeights (columnQuery 0) (fun _ => (0 : K))
      (fun _ => columnQuery 256) id P) angle (columnQuery 0) 0 256 = 1 := fun angle => by
    show columnQuery 256 256 = (1 : K)
    exact if_pos rfl
  rw [one, one, if_pos (not_le.mp wide), if_neg (fun lt => absurd (lt_min_iff.mp lt).2 (by decide)),
    counts, counts', gain 0 m.dim_pos] at first
  exact lt_irrefl _ (first.mpr ⟨one_pos, pos⟩).1

omit [FloorRing K] [IsStrictOrderedRing K] in
lemma rotate_pair (angle : Nat → K) {row : Nat → K} {i : Nat} (lt : i < m.rope.ropeDim / 2)
    (second : row (m.indexHeadDim - m.rope.ropeDim + 2 * i + 1) = 0) :
    rotate m w angle row (m.indexHeadDim - m.rope.ropeDim + 2 * i) =
      row (m.indexHeadDim - m.rope.ropeDim + 2 * i) * w.cos (angle i) := by
  have fits := m.rope_fits
  have pair : (m.indexHeadDim - m.rope.ropeDim + 2 * i - (m.indexHeadDim - m.rope.ropeDim)) / 2 = i := by
    omega
  rw [rotate]
  rw [if_pos (by omega), if_pos (by omega), pair, second, zero_mul, sub_zero]

lemma IndexersAgree.angles (agree : IndexersAgree log pi m) (P : Power K) :
    SameAngles log pi P m.rope 4 := by
  obtain ⟨c, pos, gain⟩ := agree.gain P
  have narrow := agree.narrow P
  have fits := m.rope_fits
  refine SameAngles.of_query (by decide) (4 * (m.indexTopk + 1) - 1) (by omega) ?_
  intro i lt
  let j := m.indexHeadDim - m.rope.ropeDim + 2 * i
  let cos : K → K := fun t =>
    if t = pythonAngle log pi P m.rope 4 .query (4 * (m.indexTopk + 1) - 1) i then 1 else -1
  have turned : ∀ angle, indexQueries m (probeWeights (columnQuery 0) (columnQuery j) id cos P) angle
      (columnQuery 0) 0 j = cos (angle i) := fun angle => by
    have here : columnQuery j j = (1 : K) := if_pos rfl
    have next : columnQuery j (j + 1) = (0 : K) := if_neg (Nat.succ_ne_self j)
    have pair := rotate_pair (m := m)
      (w := probeWeights (columnQuery 0) (columnQuery j) id cos P) angle lt next
    rw [here, one_mul] at pair
    exact pair
  obtain ⟨first, second⟩ := agree.probe (agree.budget P) (columnQuery 0) (columnQuery j) id cos P
    (columnQuery 0) j
  obtain ⟨counts, counts'⟩ := probe_counts (m := m) (columnQuery j) id cos P
  have inside : j < m.indexHeadDim := by omega
  rw [turned, turned, if_pos inside, if_pos (lt_min inside (by omega)), counts, counts',
    gain 0 m.dim_pos] at first second
  have python : cos (pythonAngle log pi P m.rope 4 .query (4 * (m.indexTopk + 1) - 1) i) = 1 :=
    if_pos rfl
  rw [python] at first second
  have known : ∀ t, 0 < cos t →
      t = pythonAngle log pi P m.rope 4 .query (4 * (m.indexTopk + 1) - 1) i := by
    intro t up
    by_contra other
    rw [show cos t = -1 from if_neg other] at up
    exact absurd up (not_lt.mpr (by norm_num))
  exact ⟨known _ (first.mpr ⟨one_pos, pos⟩).1, known _ (second.mpr ⟨one_pos, pos⟩).1⟩

/-- A power, for the parts of a probe where it does not matter. -/
def flatPower : Power K where
  pow _ _ := 1
  pow_pos _ _ _ := one_pos
  pow_zero _ _ := rfl
  pow_neg _ _ _ := (one_div_one).symm

/-- The engines select what Python selects, for all weights, inputs and positions, exactly for models
with a budget, heads that the threads cover, one positive gain in the norm and equal tables of
angles. -/
theorem indexersAgree_iff (log : K → K) (pi : K) (m : IndexerConfig K) :
    IndexersAgree log pi m ↔ 0 < m.indexTopk ∧ m.indexHeadDim ≤ 256 ∧
      (∃ c, 0 < c ∧ ∀ d, d < m.dim → m.attnNorm d = c) ∧
      (m.rope.compressRopeTheta = m.rope.ropeTheta ∨ m.rope.ropeDim = 2) ∧
      (m.rope.ropeFactor = 1 ∨ RampFlat log pi m.rope) := by
  have four : (4 : Nat) ≠ 0 := by decide
  rw [← stretches_iff, ← sameAngles_compress four]
  constructor
  · intro agree
    exact ⟨agree.budget flatPower, agree.narrow flatPower, agree.gain flatPower, agree.angles⟩
  · rintro ⟨some_, narrow, ⟨c, pos, gain⟩, angles⟩
    exact .of_same some_ narrow pos gain angles

end Selection

/-! ## Two gains -/

/-- A model without YaRN whose norm has the gains 2 and 1. -/
def twoGains : IndexerConfig ℚ where
  rope := {
    ropeDim := 2
    ropeTheta := 10000
    compressRopeTheta := 10000
    ropeFactor := 1
    betaFast := 32
    betaSlow := 1
    originalSeqLen := 0
    ropeDim_pos := Nat.two_pos
    ropeDim_even := by decide
    ropeTheta_pos := by norm_num
    compressRopeTheta_pos := by norm_num
    ropeFactor_pos := by norm_num
    betaFast_pos := by norm_num
    betaSlow_pos := by norm_num }
  dim := 2
  indexNHeads := 1
  indexHeadDim := 2
  indexTopk := 1
  attnNorm := fun d => if d = 0 then 2 else 1
  dim_pos := Nat.two_pos
  heads_pos := Nat.one_pos
  rope_fits := by decide

/-- With equal gains they select alike. -/
theorem indexersAgree_iff_equal : IndexersAgree id 3 { twoGains with attnNorm := fun _ => 2 } :=
  (indexersAgree_iff id 3 { twoGains with attnNorm := fun _ => 2 }).mpr
    ⟨by decide, by decide, ⟨2, by decide, fun _ _ => rfl⟩, Or.inl rfl, Or.inl rfl⟩

/-- Head weights that are the difference of the two entries of a row, and a query of one column. -/
def differenceWeights : IndexerWeights ℚ :=
  probeWeights (fun d => if d = 0 then 1 else -1) (fun _ => 0) (fun _ => columnQuery 0) id flatPower

/-- The row `(1, 1)` with two cells ready: Python selects the second cell, the engines the first. -/
theorem norm_skipped : ¬ IndexersAgree id 3 twoGains := by
  intro agree
  obtain ⟨first, -⟩ := agree differenceWeights 128 8 (fun _ => 1) (columnCells 0) 7 (by decide) 128
  revert first
  decide +kernel

end PocketMoE.Engine
