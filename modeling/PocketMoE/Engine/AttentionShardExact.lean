import Mathlib.Analysis.SpecialFunctions.Trigonometric.Basic
import Mathlib.Tactic.FieldSimp
import Mathlib.Tactic.LinearCombination
import Mathlib.Tactic.NormNum
import PocketMoE.Engine.AttentionShardSum

/-!
# Where the rows of `wo_a` matter

There is a token whose heads all attend to a row that is 1 at a given place and 0 elsewhere
(`exists_unit`). With it every row of `wo_a` that a rank gets wrong shows in the result, so the sum over
the ranks is right for no more configs than those of `allReduced_eq` (`slicesRight_iff`).
-/

namespace PocketMoE.Engine
open PocketMoE.Lib

variable {K : Type} [Field K] [LinearOrder K]

/-! ## Heads that attend to a given row -/

section Heads

variable {f : FloatFns K} {t : AttentionStep K} {headDim ropeDim : Nat}

lemma ropeHead_before (inverse : Bool) (row : Nat → K) {i : Nat} (before : i < headDim - ropeDim) :
    ropeHead f t headDim ropeDim inverse 0 row i = row i := by
  unfold ropeHead
  simp only [if_pos before, lt_irrefl, if_false]

lemma ropeHead_even (inverse : Bool) (row : Nat → K) (p : Nat) :
    ropeHead f t headDim ropeDim inverse 0 row (headDim - ropeDim + 2 * p) =
      row (headDim - ropeDim + 2 * p) * f.cos (t.position * t.invFreqs p) -
        row (headDim - ropeDim + 2 * p + 1) *
          (if inverse then -f.sin (t.position * t.invFreqs p)
            else f.sin (t.position * t.invFreqs p)) := by
  have pair : (headDim - ropeDim + 2 * p - (headDim - ropeDim)) / 2 = p := by omega
  have even : (headDim - ropeDim + 2 * p - (headDim - ropeDim)) % 2 = 0 := by omega
  unfold ropeHead
  simp only [pair, even, if_pos, lt_irrefl, if_false, if_neg (Nat.le_add_right _ _).not_gt]

lemma ropeHead_odd (inverse : Bool) (row : Nat → K) (p : Nat) :
    ropeHead f t headDim ropeDim inverse 0 row (headDim - ropeDim + 2 * p + 1) =
      row (headDim - ropeDim + 2 * p) *
          (if inverse then -f.sin (t.position * t.invFreqs p)
            else f.sin (t.position * t.invFreqs p)) +
        row (headDim - ropeDim + 2 * p + 1) * f.cos (t.position * t.invFreqs p) := by
  have pair : (headDim - ropeDim + 2 * p + 1 - (headDim - ropeDim)) / 2 = p := by omega
  have odd : (headDim - ropeDim + 2 * p + 1 - (headDim - ropeDim)) % 2 = 1 := by omega
  have turned : ¬ headDim - ropeDim + 2 * p + 1 < headDim - ropeDim := by omega
  unfold ropeHead
  simp only [pair, odd, one_ne_zero, lt_irrefl, if_false, if_neg turned]

lemma ropeHead_back (le : ropeDim ≤ headDim) (pairs : 2 ∣ ropeDim) (row : Nat → K) {i : Nat}
    (lt : i < headDim) :
    ropeHead f t headDim ropeDim true 0
      (fun j => if j < headDim then ropeHead f t headDim ropeDim false 0 row j else 0) i = row i := by
  rcases Nat.lt_or_ge i (headDim - ropeDim) with before | turned
  · rw [ropeHead_before _ _ before, if_pos lt, ropeHead_before _ _ before]
  obtain ⟨k, rfl⟩ := Nat.exists_eq_add_of_le turned
  rcases Nat.even_or_odd' k with ⟨p, rfl | rfl⟩
  all_goals
    have first : headDim - ropeDim + 2 * p < headDim := by omega
    have second : headDim - ropeDim + 2 * p + 1 < headDim := by omega
    have one := f.cos_sq_add_sin_sq (t.position * t.invFreqs p)
  · rw [ropeHead_even, if_pos first, if_pos second, ropeHead_even, ropeHead_odd, if_pos rfl]
    simp only [Bool.false_eq_true, if_false]
    linear_combination row (headDim - ropeDim + 2 * p) * one
  · rw [← Nat.add_assoc, ropeHead_odd, if_pos first, if_pos second, ropeHead_even, ropeHead_odd,
      if_pos rfl]
    simp only [Bool.false_eq_true, if_false]
    linear_combination row (headDim - ropeDim + 2 * p + 1) * one

lemma attendHead_two [IsStrictOrderedRing K] (kv kv' : Nat → K) (i : Nat) :
    attendHead f headDim [kv, kv'] 0 0 i = (kv i + kv' i) / 3 := by
  have pos := f.exp_pos 0
  unfold attendHead
  simp only [Pi.zero_apply, zero_mul, Finset.sum_const_zero, List.map_cons, List.map_nil,
    List.foldr_cons, List.foldr_nil, max_self, sub_self, List.sum_cons, List.sum_nil, add_zero]
  have three : f.exp 0 + f.exp 0 + f.exp 0 ≠ 0 := (add_pos (add_pos pos pos) pos).ne'
  field_simp
  ring

lemma ropeHead_zero (inverse : Bool) (eps : K) : ropeHead f t headDim ropeDim inverse eps 0 = 0 := by
  funext i
  unfold ropeHead
  simp only [Pi.zero_apply, zero_mul, ite_self, sub_zero, add_zero]

omit [LinearOrder K] in
lemma headwise_entry {F : Nat → (Nat → K) → Nat → K} {x : Nat → K} {j : Nat} (h : Nat)
    (lt : j < headDim) :
    headwise headDim F x (h * headDim + j) =
      F h (fun j => if j < headDim then x (h * headDim + j) else 0) j := by
  have head : (h * headDim + j) / headDim = h := by
    rw [Nat.mul_comm, Nat.mul_add_div (by omega), Nat.div_eq_of_lt lt, Nat.add_zero]
  have entry : (h * headDim + j) % headDim = j := by
    rw [Nat.mul_comm, Nat.mul_add_mod, Nat.mod_eq_of_lt lt]
  unfold headwise
  rw [head, entry]

omit [LinearOrder K] in
lemma headwise_zero {F : Nat → (Nat → K) → Nat → K} (zero : ∀ h, F h 0 = 0) :
    headwise headDim F 0 = 0 := by
  have row : (fun j => if j < headDim then (0 : Nat → K) j else 0) = 0 := by
    funext j
    exact ite_self 0
  funext i
  unfold headwise
  simp only [Pi.zero_apply, ite_self]
  exact congrFun (zero _) _

end Heads

omit [LinearOrder K] in
lemma fp8E4m3Value_zero : fp8E4m3Value (K := K) 0 = 0 := by
  unfold fp8E4m3Value
  simp

omit [LinearOrder K] in
lemma matvec_zero (x : Nat → K) (scale : Nat → UInt8) (cols : Nat) :
    matvec x (fun _ => 0) scale cols = 0 := by
  funext row
  refine Finset.sum_eq_zero fun col _ => ?_
  unfold scaled
  rw [fp8E4m3Value_zero, zero_mul, zero_mul]

lemma exists_step [IsStrictOrderedRing K] (f : FloatFns K) {cfg : AttentionConfig}
    (a : Accepts cfg 1) (launches : Launches cfg) (file : AttentionWeights K)
    (query : file.wqB = fun _ => 0) (sink : file.attnSink = 0) (u : Nat → K) :
    ∃ t, ∀ i, rankValue f t (cfg.dims 1) file i = u (i % cfg.headDim) := by
  let start : AttentionStep K :=
    { x := 0
      position := 0
      invFreqs := 0
      cacheWriteSlot := 1
      kvCache := 0
      kvIndices := [0, 1]
      kvIndices_ne := nofun }
  -- the mean of the two rows is the row to end at, turned
  let turned := ropeHead f start cfg.headDim cfg.ropeDim false 0 u
  let kv := kvNormRow f start (cfg.dims 1) file
  let t : AttentionStep K := { start with kvCache := fun _ j => 3 * turned j - kv j }
  refine ⟨t, fun i => ?_⟩
  have rows : rowsAt (Function.update t.kvCache t.cacheWriteSlot (kvNormRow f t (cfg.dims 1) file))
      t.kvIndices = [fun j => 3 * turned j - kv j, kv] := rfl
  have noQuery : headwise (cfg.dims 1).headDim
      (fun _ => ropeHead f t (cfg.dims 1).headDim (cfg.dims 1).ropeDim false (1 / 1000000))
      (matvec (qNormRow f t (cfg.dims 1) file) file.wqB file.wqBScale (cfg.dims 1).qADim) = 0 := by
    rw [query, matvec_zero]
    exact headwise_zero fun _ => ropeHead_zero _ _
  have attends (j : Nat) : attendHead f cfg.headDim [fun j => 3 * turned j - kv j, kv] 0 0 j =
      turned j := by
    rw [attendHead_two]
    ring
  have head (h j : Nat) (lt : j < cfg.headDim) :
      headwise cfg.headDim (fun _ => attendHead f cfg.headDim [fun j => 3 * turned j - kv j, kv] 0) 0
        (h * cfg.headDim + j) = turned j := by
    have row : (fun j => if j < cfg.headDim then (0 : Nat → K) (h * cfg.headDim + j) else 0) = 0 := by
      funext j
      exact ite_self 0
    rw [headwise_entry h lt, row, attends]
  have back : (fun j => if j < cfg.headDim then headwise cfg.headDim
      (fun _ => attendHead f cfg.headDim [fun j => 3 * turned j - kv j, kv] 0) 0
        (i / cfg.headDim * cfg.headDim + j) else 0) =
      fun j => if j < cfg.headDim then turned j else 0 := by
    funext j
    exact ite_congr rfl (head _ j) fun _ => rfl
  unfold rankValue attnValue
  rw [rows, noQuery, sink]
  unfold headwise at back ⊢
  show ropeHead f t cfg.headDim cfg.ropeDim true 0 _ _ = _
  exact (congrArg (ropeHead f t cfg.headDim cfg.ropeDim true 0 · _) back).trans
    (ropeHead_back launches.rope_lt.le launches.ropeDim u (Nat.mod_lt _ a.headDim))

/-! ## One weight that is not zero -/

section Probe

omit [LinearOrder K] in
lemma fp8E4m3Value_one : fp8E4m3Value (K := K) 0x38 = 1 := by
  have code : (0x38 : UInt8).toNat = 56 := rfl
  unfold fp8E4m3Value
  rw [code]
  norm_num

omit [LinearOrder K] in
lemma fp8E8m0Value_one : fp8E8m0Value (K := K) 127 = 1 := by
  have code : (127 : UInt8).toNat = 127 := rfl
  unfold fp8E8m0Value
  rw [code]
  norm_num

omit [LinearOrder K] in
lemma scaled_one (row col cols : Nat) :
    scaled 128 (K := K) fp8E4m3Value fp8E8m0Value (fun _ => 0x38) (fun _ => 127) cols row col = 1 := by
  unfold scaled
  rw [fp8E4m3Value_one, fp8E8m0Value_one, mul_one]

/-- Tensors with no query and a `wo_b` of ones. -/
def tensorsWith (K : Type) [Field K] (woA : Nat → UInt8) : AttentionWeights K where
  attnNorm := 0
  qNorm := 0
  kvNorm := 0
  attnSink := 0
  wqA _ := 0
  wqAScale _ := 127
  wqB _ := 0
  wqBScale _ := 127
  wkv _ := 0
  wkvScale _ := 127
  woA := woA
  woAScale _ := 127
  woB _ := 0x38
  woBScale _ := 127

/-- A `wo_a` with a one at a place. -/
def oneAt (place : Nat) : Nat → UInt8 := fun i => if i = place then 0x38 else 0

omit [LinearOrder K] in
lemma oneAt_value (place i : Nat) :
    fp8E4m3Value (K := K) (oneAt place i) = if i = place then 1 else 0 := by
  unfold oneAt
  split_ifs
  · exact fp8E4m3Value_one
  · exact fp8E4m3Value_zero

variable {f : FloatFns K} {t : AttentionStep K} {cfg : AttentionConfig} {tpWorld : Nat}

lemma sum_rankMid {d : AttentionSmokeDims} {w : AttentionWeights K}
    (scale : w.woAScale = fun _ => 127)
    (ones : ∀ m < d.attnMid, ∀ j < d.groupDim,
      rankValue f t d w (m / d.groupRank * d.groupDim + j) = 1) :
    ∑ m ∈ Finset.range d.attnMid, rankMid f t d w m =
      ∑ k ∈ Finset.range (d.attnMid * d.groupDim), fp8E4m3Value (w.woA k) := by
  rw [← sum_parts]
  refine Finset.sum_congr rfl fun m hm => ?_
  unfold rankMid matvec
  refine Finset.sum_congr rfl fun j hj => ?_
  dsimp only
  rw [ones m (Finset.mem_range.mp hm) j (Finset.mem_range.mp hj), mul_one]
  unfold scaled
  rw [scale, fp8E8m0Value_one, mul_one]

lemma rankOutput_probe (a : Accepts cfg tpWorld) (launches : Launches cfg)
    {bytes : Nat → UInt8} (ones : ∀ i, rankValue f t (cfg.dims 1) (tensorsWith K bytes) i = 1)
    (behind : Nat → UInt8) (rank : Nat) :
    rankOutput f t cfg tpWorld rank (tensorsWith K bytes) (tensorsWith K behind) = .ok fun _ =>
      ∑ k ∈ Finset.range ((cfg.dims tpWorld).attnMid *
          (cfg.nHeads * cfg.headDim / cfg.oGroups)),
        fp8E4m3Value (sliceRows behind bytes (rank * (cfg.dims tpWorld).groups * cfg.oLoraRank)
          (cfg.dims tpWorld).attnMid cfg.dim k) := by
  rw [rankOutput_of_launches a launches]
  refine congrArg Except.ok (funext fun i => ?_)
  have scale : (attentionDeviceCache cfg (cfg.dims tpWorld) rank (tensorsWith K bytes)
      (tensorsWith K behind)).woAScale = fun _ => 127 := by
    funext k
    exact ite_self _
  have mids := sum_rankMid (f := f) (t := t) (d := cfg.dims tpWorld) scale ?_
  · rw [← a.groupDim_eq]
    refine Eq.trans (Finset.sum_congr rfl fun m _ => ?_) mids
    exact (congrArg (· * _) (scaled_one _ _ _)).trans (one_mul _)
  · intro m hm j hj
    have few : m / cfg.oLoraRank < (cfg.dims tpWorld).groups := Nat.div_lt_of_lt_mul hm
    exact (rankValue_rank f t _ _ a launches rank ((entry_lt few hj).trans_eq a.groups_mul)).trans (ones _)

lemma forward_probe (a : Accepts cfg tpWorld) (launches : Launches cfg) {bytes : Nat → UInt8}
    (ones : ∀ i, rankValue f t (cfg.dims 1) (tensorsWith K bytes) i = 1) (i : Nat) :
    forward f t cfg (tensorsWith K bytes) i =
      ∑ k ∈ Finset.range (cfg.oLoraRank * cfg.oGroups *
        (cfg.nHeads * cfg.headDim / cfg.oGroups)), fp8E4m3Value (bytes k) := by
  have mid : (cfg.dims 1).attnMid = cfg.oLoraRank * cfg.oGroups := by
    show cfg.oLoraRank * (cfg.oGroups / 1) = _
    rw [Nat.div_one]
  rw [forward_eq a launches, ← a.one.groupDim_eq, ← mid]
  refine Eq.trans (Finset.sum_congr rfl fun m _ => ?_)
    (sum_rankMid (w := tensorsWith K bytes) rfl fun m _ j _ => ones _)
  exact (congrArg (· * _) (scaled_one _ _ _)).trans (one_mul _)

end Probe

/-! ## When the ranks' results add up -/

section Exact

variable [IsStrictOrderedRing K] {f : FloatFns K} {s : AttentionSplit}

lemma not_slicesRight_of_wide (launches : Launches s.toAttentionConfig)
    (wide : s.dim < s.nHeads * s.headDim / s.oGroups) : ¬ s.SlicesRight f := by
  intro right
  have a := (accepts_iff.mp s.accepted).one
  have mid_pos : 0 < (s.toAttentionConfig.dims 1).attnMid := Nat.mul_pos a.groupRank a.groups
  obtain ⟨t, ones⟩ := exists_step f a launches (tensorsWith K fun _ => 0) rfl rfl fun _ => 1
  obtain ⟨last, place⟩ : ∃ last, last + 1 = (s.toAttentionConfig.dims 1).attnMid *
      (s.nHeads * s.headDim / s.oGroups) :=
    ⟨_, Nat.sub_add_cancel (Nat.mul_pos mid_pos (by omega))⟩
  have reads := rankOutput_probe a launches ones (oneAt last) 0
  have same := (right t (tensorsWith K fun _ => 0) (fun _ => tensorsWith K fun _ => 0)
    (tensorsWith K (oneAt last))).2 _ reads
  have zero := congrFun same ⟨0, launches.dim_pos⟩
  rw [forward_probe a launches ones] at zero
  simp only [fp8E4m3Value_zero, Finset.sum_const_zero] at zero
  have behind : (s.toAttentionConfig.dims 1).attnMid * s.dim ≤ last := by
    have less := (Nat.mul_lt_mul_left mid_pos).mpr wide
    omega
  rw [← place, Finset.sum_range_succ, Finset.sum_eq_zero fun k lt => ?_] at zero
  · unfold sliceRows copied at zero
    rw [if_neg behind.not_gt, oneAt_value, if_pos rfl, zero_add] at zero
    exact one_ne_zero zero
  · have ne : k ≠ last := (Finset.mem_range.mp lt).ne
    unfold sliceRows copied
    split_ifs
    · exact fp8E4m3Value_zero
    · rw [oneAt_value, if_neg ne]

lemma not_slicesRight_of_narrow (launches : Launches s.toAttentionConfig)
    (narrow : s.nHeads * s.headDim / s.oGroups < s.dim) (ranks : s.tpWorld ≠ 1) :
    ¬ s.SlicesRight f := by
  intro right
  have a := accepts_iff.mp s.accepted
  have width : 0 < s.nHeads * s.headDim / s.oGroups := a.groupDim_eq ▸ groupDim_pos a
  obtain ⟨place, here⟩ : ∃ place, place = (s.toAttentionConfig.dims s.tpWorld).attnMid *
    (s.nHeads * s.headDim / s.oGroups) := ⟨_, rfl⟩
  have mid_pos : 0 < (s.toAttentionConfig.dims s.tpWorld).attnMid := Nat.mul_pos a.groupRank a.groups
  obtain ⟨t, ones⟩ := exists_step f a.one launches (tensorsWith K (oneAt place)) rfl rfl fun _ => 1
  have same := (right t (tensorsWith K (oneAt place)) (fun _ => tensorsWith K fun _ => 0)
    (tensorsWith K fun _ => 0)).1
  rw [allReduced_of_ok fun rank _ => rankOutput_probe a launches ones _ rank,
    rankOutput_probe a.one launches ones _ 0] at same
  have mid : (s.toAttentionConfig.dims 1).attnMid =
      s.tpWorld * (s.toAttentionConfig.dims s.tpWorld).attnMid := by
    show s.oLoraRank * (s.oGroups / 1) = s.tpWorld * (s.oLoraRank * (s.oGroups / s.tpWorld))
    rw [Nat.div_one, Nat.mul_left_comm, a.groups_total]
  -- the ranks
  have unread (rank k : Nat) (lt : k < place) :
      fp8E4m3Value (K := K) (sliceRows (fun _ => 0) (oneAt place)
        (rank * (s.toAttentionConfig.dims s.tpWorld).groups * s.oLoraRank)
        (s.toAttentionConfig.dims s.tpWorld).attnMid s.dim k) = 0 := by
    have less : place < (s.toAttentionConfig.dims s.tpWorld).attnMid * s.dim := by
      rw [here]
      exact (Nat.mul_lt_mul_left mid_pos).mpr narrow
    have start : rank * (s.toAttentionConfig.dims s.tpWorld).groups * s.oLoraRank * s.dim =
        rank * ((s.toAttentionConfig.dims s.tpWorld).attnMid * s.dim) := by
      show _ = rank * (s.oLoraRank * (s.toAttentionConfig.dims s.tpWorld).groups * s.dim)
      ring
    unfold sliceRows copied
    rw [if_pos (lt.trans less), start, oneAt_value, if_neg]
    rcases rank with _ | rank
    · omega
    · rw [Nat.succ_mul]
      omega
  -- one rank
  have read (k : Nat) (lt : k < (s.toAttentionConfig.dims 1).attnMid *
      (s.nHeads * s.headDim / s.oGroups)) :
      fp8E4m3Value (K := K) (sliceRows (fun _ => 0) (oneAt place)
        (0 * (s.toAttentionConfig.dims 1).groups * s.oLoraRank)
        (s.toAttentionConfig.dims 1).attnMid s.dim k) = if k = place then 1 else 0 := by
    unfold sliceRows copied
    rw [if_pos (lt.trans_le (Nat.mul_le_mul_left _ narrow.le)), Nat.zero_mul, Nat.zero_mul,
      Nat.zero_mul]
    dsimp only
    rw [Nat.zero_add, oneAt_value]
  have inside : place < (s.toAttentionConfig.dims 1).attnMid *
      (s.nHeads * s.headDim / s.oGroups) := by
    have two : 2 ≤ s.tpWorld := by
      have := a.world_pos
      omega
    have grows := Nat.mul_le_mul_right place two
    have pos : 0 < place := here ▸ Nat.mul_pos mid_pos width
    rw [mid, Nat.mul_assoc, ← here]
    omega
  have entry := congrFun (Except.ok.inj same) ⟨0, launches.dim_pos⟩
  rw [Finset.sum_apply, Finset.sum_eq_zero fun rank _ => Finset.sum_eq_zero fun k lt =>
      unread rank k (here ▸ Finset.mem_range.mp lt),
    Finset.sum_congr rfl fun k lt => read k (Finset.mem_range.mp lt), Finset.sum_ite_eq',
    if_pos (Finset.mem_range.mpr inside)] at entry
  exact zero_ne_one entry

/-- The all-reduce gives the attention of one rank, with every scale at its block, exactly if the
kernels refuse the sizes for every number of ranks, or a group has the width of the model, or there is
one rank and no group is wider. -/
theorem slicesRight_iff (f : FloatFns K) (s : AttentionSplit) :
    s.SlicesRight f ↔ ¬ Launches s.toAttentionConfig ∨
      s.nHeads * s.headDim / s.oGroups = s.dim ∨
      s.tpWorld = 1 ∧ s.nHeads * s.headDim / s.oGroups ≤ s.dim := by
  have a := accepts_iff.mp s.accepted
  by_cases launches : Launches s.toAttentionConfig
  · rw [or_iff_right (not_not.mpr launches)]
    constructor
    · intro right
      rcases Nat.lt_trichotomy (s.nHeads * s.headDim / s.oGroups) s.dim with narrow | same | wide
      · exact Or.inr ⟨not_not.mp fun ranks =>
          not_slicesRight_of_narrow launches narrow ranks right, narrow.le⟩
      · exact Or.inl same
      · exact absurd right (not_slicesRight_of_wide launches wide)
    · intro fits t file behind behind₁
      have ranks : ∀ rank < s.tpWorld, RowsFit s.toAttentionConfig rank := by
        rintro rank lt
        rcases fits with same | ⟨one, le⟩
        · exact Or.inl same
        · exact Or.inr ⟨by omega, le⟩
      have le : s.nHeads * s.headDim / s.oGroups ≤ s.dim := by
        rcases fits with same | ⟨-, le⟩
        exacts [same.le, le]
      have one := allReduced_eq f t file a.one launches
        (fun _ => behind₁) fun rank lt => Or.inr ⟨Nat.lt_one_iff.mp lt, le⟩
      rw [allReduced_one] at one
      rw [one]
      refine ⟨allReduced_eq f t file a launches behind ranks, fun out ok => ?_⟩
      rw [← Except.ok.inj ok, forward_eq a launches]
  · refine iff_of_true (fun t file behind behind₁ => ?_) (Or.inl launches)
    have refused := rankOutput_of_refused f t file behind₁ a.one launches 0
    refine ⟨?_, fun out ok => ?_⟩
    · rw [refused]
      exact allReduced_of_error a.world_pos (rankOutput_of_refused f t file (behind 0) a launches 0)
    · rw [refused] at ok
      cases ok

end Exact

section Real

/-- Real functions; the quantisation keeps what it is given. -/
noncomputable def realFns : FloatFns ℝ where
  rsqrt x := 1 / Real.sqrt x
  exp := Real.exp
  cos := Real.cos
  sin := Real.sin
  actQuant x := x
  exp_pos := Real.exp_pos
  cos_sq_add_sin_sq := Real.cos_sq_add_sin_sq

/-- The sizes of the model's defaults, with heads of this width. -/
def headsOf (headDim : Nat) : AttentionConfig where
  dim := 4096
  qLoraRank := 1024
  nHeads := 64
  headDim
  kvHeads := 1
  oGroups := 8
  oLoraRank := 1024
  ropeDim := 64

/-- Heads of 512: groups as wide as the model. -/
theorem default_heads : AttentionSplit.SlicesRight realFns ⟨headsOf 512, 8, rfl⟩ :=
  (slicesRight_iff realFns _).mpr (Or.inr (Or.inl rfl))

/-- Heads of 256 on two ranks. -/
theorem narrow_heads : ¬ AttentionSplit.SlicesRight realFns ⟨headsOf 256, 2, rfl⟩ :=
  not_slicesRight_of_narrow
    { dim_pos := by decide
      dim := by decide
      qADim := by decide
      headDim := by decide
      groupRank := by decide
      groupDim := by decide
      ropeDim := by decide
      rope_lt := by decide
      quant := by decide }
    (by decide) (by decide)

end Real

end PocketMoE.Engine
