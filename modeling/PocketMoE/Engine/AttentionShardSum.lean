import PocketMoE.Engine.AttentionShard
import PocketMoE.Lib.Except

/-!
# The attention of all ranks

Does the all-reduce of the ranks' attention outputs give the output of one rank, and that with every
weight times the scale of its own block? `wo_a` is cut into rows of the width of the model instead of
the width of a group. `slicesRight_iff` says for which configs and world sizes that does not matter.
-/

namespace PocketMoE.Engine
open PocketMoE.Lib

variable {K : Type} [Field K] [LinearOrder K]

/-- A config and a number of ranks that `make_attention_dims` accepts. -/
structure AttentionSplit extends AttentionConfig where
  tpWorld : Nat
  accepted : makeAttentionDims toAttentionConfig tpWorld = .ok (toAttentionConfig.dims tpWorld)

/-- The sum over the ranks is what one rank computes, and that is what `Attention.forward` does: for
all tensors, whatever lies behind the copies, and for every token. -/
def AttentionSplit.SlicesRight (f : FloatFns K) (s : AttentionSplit) : Prop :=
  ∀ (t : AttentionStep K) (file : AttentionWeights K) (behind : Nat → AttentionWeights K)
    (behind₁ : AttentionWeights K),
    allReduced f t s.toAttentionConfig s.tpWorld file behind =
        rankOutput f t s.toAttentionConfig 1 0 file behind₁ ∧
      ∀ out, rankOutput f t s.toAttentionConfig 1 0 file behind₁ = .ok out →
        out = fun i : Fin s.dim => forward f t s.toAttentionConfig file i

/-! ## What is accepted -/

/-- What `make_attention_dims` checks. -/
structure Accepts (cfg : AttentionConfig) (tpWorld : Nat) : Prop where
  heads_dvd : tpWorld ∣ cfg.nHeads
  groups_dvd : tpWorld ∣ cfg.oGroups
  qADim : 0 < cfg.qLoraRank
  heads : 0 < cfg.nHeads / tpWorld
  headDim : 0 < cfg.headDim
  groups : 0 < cfg.oGroups / tpWorld
  groupRank : 0 < cfg.oLoraRank
  ropeDim : 0 < cfg.ropeDim
  even : cfg.oGroups / tpWorld ∣ cfg.nHeads / tpWorld * cfg.headDim
  oneHead : cfg.kvHeads * cfg.headDim = cfg.headDim

lemma accepts_iff {cfg : AttentionConfig} {tpWorld : Nat} :
    makeAttentionDims cfg tpWorld = .ok (cfg.dims tpWorld) ↔ Accepts cfg tpWorld := by
  constructor
  · intro ok
    unfold makeAttentionDims at ok
    dsimp only at ok
    by_cases divides : cfg.nHeads % tpWorld ≠ 0 ∨ cfg.oGroups % tpWorld ≠ 0
    · rw [if_pos divides] at ok
      cases ok
    rw [if_neg divides] at ok
    split_ifs at ok with zero even oneHead
    rw [not_or, not_not, not_not] at divides
    rw [not_not] at even oneHead
    simp only [AttentionConfig.dims, not_or] at zero even oneHead
    obtain ⟨qADim, heads, headDim, -, groups, groupRank, ropeDim⟩ := zero
    exact ⟨Nat.dvd_of_mod_eq_zero divides.1, Nat.dvd_of_mod_eq_zero divides.2,
      Nat.pos_of_ne_zero qADim, Nat.pos_of_ne_zero heads, Nat.pos_of_ne_zero headDim,
      Nat.pos_of_ne_zero groups, Nat.pos_of_ne_zero groupRank, Nat.pos_of_ne_zero ropeDim,
      Nat.dvd_of_mod_eq_zero even, oneHead⟩
  · intro a
    have divides : ¬ (cfg.nHeads % tpWorld ≠ 0 ∨ cfg.oGroups % tpWorld ≠ 0) := by
      simp [Nat.mod_eq_zero_of_dvd a.heads_dvd, Nat.mod_eq_zero_of_dvd a.groups_dvd]
    have zero : ¬ (cfg.qLoraRank = 0 ∨ cfg.nHeads / tpWorld = 0 ∨ cfg.headDim = 0 ∨
        cfg.kvHeads * cfg.headDim = 0 ∨ cfg.oGroups / tpWorld = 0 ∨ cfg.oLoraRank = 0 ∨
        cfg.ropeDim = 0) := by
      simp only [a.oneHead, a.headDim.ne', a.qADim.ne', a.heads.ne', a.groups.ne', a.groupRank.ne',
        a.ropeDim.ne', or_self, not_false_iff]
    exact (if_neg divides).trans ((if_neg zero).trans
      ((if_neg (not_not.mpr (Nat.mod_eq_zero_of_dvd a.even))).trans (if_neg (not_not.mpr a.oneHead))))

namespace Accepts

variable {cfg : AttentionConfig} {tpWorld : Nat} (a : Accepts cfg tpWorld)

include a

lemma world_pos : 0 < tpWorld := by
  by_contra zero
  have := a.heads
  simp [Nat.eq_zero_of_not_pos zero] at this

lemma heads_total : tpWorld * (cfg.nHeads / tpWorld) = cfg.nHeads := Nat.mul_div_cancel' a.heads_dvd

lemma groups_total : tpWorld * (cfg.oGroups / tpWorld) = cfg.oGroups :=
  Nat.mul_div_cancel' a.groups_dvd

lemma groupDim_eq : (cfg.dims tpWorld).groupDim = cfg.nHeads * cfg.headDim / cfg.oGroups := by
  show cfg.nHeads / tpWorld * cfg.headDim / (cfg.oGroups / tpWorld) = _
  conv_rhs => rw [← a.heads_total, ← a.groups_total, Nat.mul_assoc]
  exact (Nat.mul_div_mul_left _ _ a.world_pos).symm

lemma groups_mul : (cfg.dims tpWorld).groups * (cfg.dims tpWorld).groupDim =
    (cfg.dims tpWorld).qDim := Nat.mul_div_cancel' a.even

lemma one : Accepts cfg 1 where
  heads_dvd := one_dvd _
  groups_dvd := one_dvd _
  qADim := a.qADim
  heads := by
    rw [Nat.div_one]
    exact a.heads.trans_le (Nat.div_le_self ..)
  headDim := a.headDim
  groups := by
    rw [Nat.div_one]
    exact a.groups.trans_le (Nat.div_le_self ..)
  groupRank := a.groupRank
  ropeDim := a.ropeDim
  even := by
    rw [Nat.div_one, Nat.div_one]
    conv_lhs => rw [← a.groups_total]
    conv_rhs => rw [← a.heads_total, Nat.mul_assoc]
    exact Nat.mul_dvd_mul_left _ a.even
  oneHead := a.oneHead

end Accepts

/-! ## The shapes that the kernels take -/

/-- The kernels launch for these sizes. -/
structure Launches (cfg : AttentionConfig) : Prop where
  dim_pos : 0 < cfg.dim
  dim : 128 ∣ cfg.dim
  qADim : 128 ∣ cfg.qLoraRank
  headDim : 128 ∣ cfg.headDim
  groupRank : 128 ∣ cfg.oLoraRank
  groupDim : 128 ∣ cfg.nHeads * cfg.headDim / cfg.oGroups
  ropeDim : 2 ∣ cfg.ropeDim
  rope_lt : cfg.ropeDim < cfg.headDim
  quant : 64 ∣ cfg.headDim - cfg.ropeDim

section Kernels

variable {f : FloatFns K} {t : AttentionStep K} {x y gamma : Nat → K}

omit [LinearOrder K] in
lemma matvecCuda_iff {weight scale : Nat → UInt8} {rows cols : Nat} :
    fp8E4m3E8m0MatvecCuda x weight scale rows cols = some y ↔
      (0 < rows ∧ 0 < cols ∧ 128 ∣ rows ∧ 128 ∣ cols) ∧ matvec x weight scale cols = y := by
  unfold fp8E4m3E8m0MatvecCuda
  split_ifs with empty unaligned
  · simp only [false_iff]
    omega
  · simp only [false_iff]
    omega
  · rw [Option.some.injEq, iff_and_self]
    omega

lemma rmsnormCuda_iff {cols : Nat} :
    rmsnormBf16GammaCuda f x gamma cols = some y ↔ 0 < cols ∧ rmsnorm f x gamma cols = y := by
  unfold rmsnormBf16GammaCuda
  split_ifs with empty
  · simp only [false_iff]
    omega
  · rw [Option.some.injEq, iff_and_self]
    omega

lemma ropeCuda_iff {heads headDim ropeDim : Nat} {inverse : Bool} {eps : K} :
    headRmsnormRopeFreqsCuda f t x heads headDim ropeDim inverse eps = some y ↔
      (0 < heads ∧ 0 < headDim ∧ 0 < ropeDim ∧ ropeDim ≤ headDim ∧ 2 ∣ ropeDim) ∧
        headwise headDim (fun _ => ropeHead f t headDim ropeDim inverse eps) x = y := by
  unfold headRmsnormRopeFreqsCuda
  split_ifs with refused
  · simp only [false_iff]
    omega
  · rw [Option.some.injEq, iff_and_self]
    omega

lemma actQuantCuda_iff {cols : Nat} :
    fp8ActQuantDequantCuda f x cols = some y ↔
      (0 < cols ∧ 64 ∣ cols) ∧ actQuantRow f x cols = y := by
  unfold fp8ActQuantDequantCuda
  split_ifs with refused
  · simp only [false_iff]
    omega
  · rw [Option.some.injEq, iff_and_self]
    omega

end Kernels

lemma exists_of_mapM {α β : Type} {g : α → Option β} {xs : List α} {ys : List β}
    (all : xs.mapM g = some ys) {x : α} (member : x ∈ xs) : ∃ y, g x = some y := by
  induction xs generalizing ys with
  | nil => cases member
  | cons first rest ih =>
    rw [List.mapM_cons] at all
    simp only [Option.bind_eq_bind, Option.bind_eq_some_iff] at all
    obtain ⟨y, here, ys, later, _⟩ := all
    rcases List.mem_cons.mp member with rfl | member
    · exact ⟨y, here⟩
    · exact ih later member

section Runs

variable (f : FloatFns K) (t : AttentionStep K) (d : AttentionSmokeDims) (w : AttentionWeights K)

/-- What the heads of a rank attend to, turned back. -/
def rankValue : Nat → K :=
  attnValue f t d.headDim d.ropeDim
    (rowsAt (Function.update t.kvCache t.cacheWriteSlot (kvNormRow f t d w)) t.kvIndices) w.attnSink
    (headwise d.headDim (fun _ => ropeHead f t d.headDim d.ropeDim false (1 / 1000000))
      (matvec (qNormRow f t d w) w.wqB w.wqBScale d.qADim))

/-- The rows of `wo_a` times the values of their group. -/
def rankMid : Nat → K := fun m =>
  matvec (fun i => rankValue f t d w (m / d.groupRank * d.groupDim + i)) w.woA w.woAScale
    d.groupDim m

variable {f t w} {cfg : AttentionConfig} {tpWorld : Nat}

lemma groupDim_pos (a : Accepts cfg tpWorld) : 0 < (cfg.dims tpWorld).groupDim := by
  refine Nat.pos_of_ne_zero fun zero => ?_
  have total := a.groups_mul
  rw [zero, Nat.mul_zero] at total
  exact (Nat.mul_pos a.heads a.headDim).ne total

omit [LinearOrder K] in
lemma woA_groups (a : Accepts cfg tpWorld) (launches : Launches cfg) (value : Nat → K) :
    (List.range (cfg.dims tpWorld).groups).mapM (woAGroup (cfg.dims tpWorld) w value) =
      some ((List.range (cfg.dims tpWorld).groups).map fun g m =>
        matvec (fun i => value (g * (cfg.dims tpWorld).groupDim + i)) w.woA w.woAScale
          (cfg.dims tpWorld).groupDim (g * (cfg.dims tpWorld).groupRank + m)) := by
  have groupDim : 128 ∣ (cfg.dims tpWorld).groupDim := by
    rw [a.groupDim_eq]
    exact launches.groupDim
  have each : woAGroup (cfg.dims tpWorld) w value = fun g => pure fun m =>
      matvec (fun i => value (g * (cfg.dims tpWorld).groupDim + i)) w.woA w.woAScale
        (cfg.dims tpWorld).groupDim (g * (cfg.dims tpWorld).groupRank + m) := by
    funext g
    refine matvecCuda_iff.mpr ⟨⟨a.groupRank, groupDim_pos a, launches.groupRank, groupDim⟩, ?_⟩
    funext m
    refine Finset.sum_congr rfl fun j _ => ?_
    have block : g * ((cfg.dims tpWorld).groupRank / 128) =
        g * (cfg.dims tpWorld).groupRank / 128 := (Nat.mul_div_assoc g launches.groupRank).symm
    dsimp only
    rw [block]
    exact congrArg (· * _) (scaled_rows w.woA w.woAScale (launches.groupRank.mul_left g) m j)
  rw [each]
  exact List.mapM_pure

lemma run_of_launches (a : Accepts cfg tpWorld) (launches : Launches cfg) :
    ∃ out, runSingleTokenAttention f t (cfg.dims tpWorld) w = some out ∧
      ∀ i, out i = matvec (rankMid f t (cfg.dims tpWorld) w) w.woB w.woBScale
        (cfg.dims tpWorld).attnMid i := by
  have dim := launches.dim_pos
  have qDim : 128 ∣ (cfg.dims tpWorld).qDim := launches.headDim.mul_left _
  have qDim_pos : 0 < (cfg.dims tpWorld).qDim := Nat.mul_pos a.heads a.headDim
  have kvDim : (cfg.dims tpWorld).kvDim = cfg.headDim := a.oneHead
  have attnMid : 128 ∣ (cfg.dims tpWorld).attnMid := launches.groupRank.mul_right _
  have attnMid_pos : 0 < (cfg.dims tpWorld).attnMid := Nat.mul_pos a.groupRank a.groups
  have rope := launches.rope_lt
  have quant : 0 < cfg.headDim - cfg.ropeDim := by omega
  refine ⟨matvec (fun m => ((List.range (cfg.dims tpWorld).groups).map fun g m =>
      matvec (fun i => rankValue f t (cfg.dims tpWorld) w (g * (cfg.dims tpWorld).groupDim + i))
        w.woA w.woAScale (cfg.dims tpWorld).groupDim
        (g * (cfg.dims tpWorld).groupRank + m)).getD (m / (cfg.dims tpWorld).groupRank) 0
      (m % (cfg.dims tpWorld).groupRank)) w.woB w.woBScale (cfg.dims tpWorld).attnMid, ?_, ?_⟩
  · simp only [runSingleTokenAttention, Option.bind_eq_bind, Option.bind_eq_some_iff,
      rmsnormCuda_iff, matvecCuda_iff, ropeCuda_iff, actQuantCuda_iff]
    exact ⟨_, ⟨dim, rfl⟩, _, ⟨⟨a.qADim, dim, launches.qADim, launches.dim⟩, rfl⟩, _, ⟨a.qADim, rfl⟩,
      _, ⟨⟨qDim_pos, a.qADim, qDim, launches.qADim⟩, rfl⟩, _,
      ⟨⟨a.heads, a.headDim, a.ropeDim, rope.le, launches.ropeDim⟩, rfl⟩, _,
      ⟨⟨kvDim ▸ a.headDim, dim, kvDim ▸ launches.headDim, launches.dim⟩, rfl⟩, _,
      ⟨kvDim ▸ a.headDim, rfl⟩, _,
      ⟨⟨one_pos, a.headDim, a.ropeDim, rope.le, launches.ropeDim⟩, rfl⟩, _,
      ⟨⟨quant, launches.quant⟩, rfl⟩, _,
      ⟨⟨a.heads, a.headDim, a.ropeDim, rope.le, launches.ropeDim⟩, rfl⟩, _, woA_groups a launches _,
      ⟨dim, attnMid_pos, launches.dim, attnMid⟩, rfl⟩
  · intro i
    refine Finset.sum_congr rfl fun m member => ?_
    have few : m / (cfg.dims tpWorld).groupRank < (cfg.dims tpWorld).groups :=
      Nat.div_lt_of_lt_mul (Finset.mem_range.mp member)
    have row : m / (cfg.dims tpWorld).groupRank * (cfg.dims tpWorld).groupRank +
        m % (cfg.dims tpWorld).groupRank = m := Nat.div_add_mod' ..
    dsimp only
    rw [List.getD_eq_getElem _ _ (by simpa using few), List.getElem_map, List.getElem_range, row]
    rfl

lemma launches_of_run (a : Accepts cfg tpWorld) {out : Nat → K}
    (runs : runSingleTokenAttention f t (cfg.dims tpWorld) w = some out) : Launches cfg := by
  simp only [runSingleTokenAttention, Option.bind_eq_bind, Option.bind_eq_some_iff,
    rmsnormCuda_iff, matvecCuda_iff, ropeCuda_iff, actQuantCuda_iff] at runs
  obtain ⟨_, ⟨dim_pos, _⟩, _, ⟨⟨_, _, qADim, dim⟩, _⟩, _, _, _, _, _, _, _, ⟨⟨_, _, kvDim, _⟩, _⟩, _, _,
    _, ⟨⟨_, _, ropePos, ropeLe, rope⟩, _⟩, _, ⟨⟨quantPos, quant⟩, _⟩, _, _, mids, loop, _⟩ := runs
  have first := exists_of_mapM loop (List.mem_range.mpr a.groups)
  obtain ⟨_, first⟩ := first
  obtain ⟨⟨_, _, groupRank, groupDim⟩, _⟩ := matvecCuda_iff.mp first
  have headDim : 128 ∣ cfg.headDim := a.oneHead ▸ kvDim
  rw [a.groupDim_eq] at groupDim
  have lt : 0 < cfg.headDim - cfg.ropeDim := quantPos
  exact ⟨dim_pos, dim, qADim, headDim, groupRank, groupDim, rope, by omega, quant⟩

end Runs

/-! ## A rank's part of the sums -/

section Parts

variable {K : Type} [Field K]

lemma headwise_shift {headDim n start : Nat} {F G : Nat → (Nat → K) → Nat → K} {x y : Nat → K}
    (pos : 0 < headDim) (heads : ∀ h < n, F h = G (start + h))
    (row : ∀ i < n * headDim, x i = y (start * headDim + i)) {i : Nat} (lt : i < n * headDim) :
    headwise headDim F x i = headwise headDim G y (start * headDim + i) := by
  have head : (start * headDim + i) / headDim = start + i / headDim := by
    rw [Nat.mul_comm, Nat.mul_add_div pos]
  have entry : (start * headDim + i) % headDim = i % headDim := by
    rw [Nat.mul_comm, Nat.mul_add_mod]
  have few : i / headDim < n := Nat.div_lt_of_lt_mul (by rwa [Nat.mul_comm])
  unfold headwise
  rw [head, entry, heads _ few]
  congr 1
  funext j
  split_ifs with inside
  · rw [row _ (entry_lt few inside), Nat.add_mul, Nat.add_assoc]
  · rfl

end Parts

section Ranks

variable {f : FloatFns K} {t : AttentionStep K} {cfg : AttentionConfig} {tpWorld : Nat}
  {file behind : AttentionWeights K}

variable (f t file behind) in
lemma rankValue_rank (a : Accepts cfg tpWorld) (launches : Launches cfg) (rank : Nat) {i : Nat}
    (lt : i < (cfg.dims tpWorld).qDim) :
    rankValue f t (cfg.dims tpWorld)
        (attentionDeviceCache cfg (cfg.dims tpWorld) rank file behind) i =
      rankValue f t (cfg.dims 1) file (rank * (cfg.dims tpWorld).qDim + i) := by
  have start : rank * (cfg.dims tpWorld).qDim =
      rank * (cfg.dims tpWorld).heads * cfg.headDim := (Nat.mul_assoc ..).symm
  rw [start]
  unfold rankValue attnValue
  -- from the result back to the rows of `wq_b`
  refine headwise_shift a.headDim ?_ ?_ lt
  · intro _ _
    rfl
  intro i lt
  refine headwise_shift a.headDim ?_ ?_ lt
  · intro h few
    exact congrArg (attendHead f cfg.headDim _) (if_pos few)
  intro i lt
  refine headwise_shift a.headDim ?_ ?_ lt
  · intro _ _
    rfl
  intro i lt
  refine Finset.sum_congr rfl fun col member => ?_
  exact congrArg (· * _) (scaled_sliceRows _ _ _ _ (launches.headDim.mul_left _)
    (launches.headDim.mul_left _) launches.qADim lt (Finset.mem_range.mp member))

/-- The rows of `wo_a` are cut where a rank reads them: they have the width of a group, or it reads
from the first row on. -/
def RowsFit (cfg : AttentionConfig) (rank : Nat) : Prop :=
  cfg.nHeads * cfg.headDim / cfg.oGroups = cfg.dim ∨
    rank = 0 ∧ cfg.nHeads * cfg.headDim / cfg.oGroups ≤ cfg.dim

omit [LinearOrder K] in
lemma woA_rank (launches : Launches cfg) {rank : Nat} (fits : RowsFit cfg rank) {m j : Nat}
    (hm : m < (cfg.dims tpWorld).attnMid)
    (hj : j < cfg.nHeads * cfg.headDim / cfg.oGroups) :
    scaled 128 (K := K) fp8E4m3Value fp8E8m0Value
        (attentionDeviceCache cfg (cfg.dims tpWorld) rank file behind).woA
        (attentionDeviceCache cfg (cfg.dims tpWorld) rank file behind).woAScale
        (cfg.nHeads * cfg.headDim / cfg.oGroups) m j =
      scaled 128 fp8E4m3Value fp8E8m0Value file.woA file.woAScale
        (cfg.nHeads * cfg.headDim / cfg.oGroups)
        (rank * (cfg.dims tpWorld).groups * cfg.oLoraRank + m) j := by
  have mid : 128 ∣ (cfg.dims tpWorld).attnMid := launches.groupRank.mul_right _
  rcases fits with same | ⟨rfl, le⟩
  · rw [same] at hj ⊢
    exact scaled_sliceRows _ _ _ _ (launches.groupRank.mul_left _) mid launches.dim hm hj
  · have entry : m * (cfg.nHeads * cfg.headDim / cfg.oGroups) + j <
        (cfg.dims tpWorld).attnMid * cfg.dim :=
      (entry_lt hm hj).trans_le (Nat.mul_le_mul_left _ le)
    have block : m / 128 * (cfg.nHeads * cfg.headDim / cfg.oGroups / 128) + j / 128 <
        (cfg.dims tpWorld).attnMid / 128 * (cfg.dim / 128) :=
      (entry_lt (block_lt mid hm) (block_lt launches.groupDim hj)).trans_le
        (Nat.mul_le_mul_left _ (Nat.div_le_div_right le))
    rw [Nat.zero_mul, Nat.zero_mul, Nat.zero_add]
    unfold scaled
    congr 1
    · refine congrArg _ ((if_pos entry).trans (congrArg file.woA ?_))
      simp
    · refine congrArg _ ((if_pos block).trans (congrArg file.woAScale ?_))
      simp

lemma rankMid_rank (a : Accepts cfg tpWorld) (launches : Launches cfg) {rank : Nat}
    (fits : RowsFit cfg rank) {m : Nat} (lt : m < (cfg.dims tpWorld).attnMid) :
    rankMid f t (cfg.dims tpWorld)
        (attentionDeviceCache cfg (cfg.dims tpWorld) rank file behind) m =
      rankMid f t (cfg.dims 1) file (rank * (cfg.dims tpWorld).attnMid + m) := by
  have start : rank * (cfg.dims tpWorld).attnMid =
      rank * (cfg.dims tpWorld).groups * cfg.oLoraRank := by
    show rank * (cfg.oLoraRank * (cfg.dims tpWorld).groups) = _
    ring
  have group : (rank * (cfg.dims tpWorld).attnMid + m) / cfg.oLoraRank =
      rank * (cfg.dims tpWorld).groups + m / cfg.oLoraRank := by
    rw [start, Nat.mul_comm, Nat.mul_add_div a.groupRank]
  have few : m / cfg.oLoraRank < (cfg.dims tpWorld).groups := Nat.div_lt_of_lt_mul lt
  unfold rankMid matvec
  rw [a.groupDim_eq, a.one.groupDim_eq]
  refine Finset.sum_congr rfl fun j member => ?_
  have hj := Finset.mem_range.mp member
  have inside : m / cfg.oLoraRank * (cfg.nHeads * cfg.headDim / cfg.oGroups) + j <
      (cfg.dims tpWorld).qDim := by
    rw [← a.groups_mul, a.groupDim_eq]
    exact entry_lt few hj
  have place : rank * (cfg.dims tpWorld).qDim +
      (m / cfg.oLoraRank * (cfg.nHeads * cfg.headDim / cfg.oGroups) + j) =
      (rank * (cfg.dims tpWorld).attnMid + m) / cfg.oLoraRank *
        (cfg.nHeads * cfg.headDim / cfg.oGroups) + j := by
    rw [group, ← a.groups_mul, a.groupDim_eq]
    ring
  have value := (rankValue_rank f t file behind a launches rank inside).trans (congrArg _ place)
  exact congrArg₂ (· * ·) ((woA_rank launches fits lt hj).trans (by rw [start])) value

lemma rankOutput_of_launches (a : Accepts cfg tpWorld) (launches : Launches cfg) (rank : Nat) :
    rankOutput f t cfg tpWorld rank file behind = .ok fun i =>
      ∑ m ∈ Finset.range (cfg.dims tpWorld).attnMid,
        scaled 128 fp8E4m3Value fp8E8m0Value file.woB file.woBScale (cfg.oLoraRank * cfg.oGroups) i
            (rank * (cfg.dims tpWorld).attnMid + m) *
          rankMid f t (cfg.dims tpWorld)
            (attentionDeviceCache cfg (cfg.dims tpWorld) rank file behind) m := by
  obtain ⟨out, runs, value⟩ := run_of_launches (f := f) (t := t)
    (w := attentionDeviceCache cfg (cfg.dims tpWorld) rank file behind) a launches
  unfold rankOutput
  rw [accepts_iff.mpr a]
  dsimp only
  rw [runs]
  refine congrArg Except.ok (funext fun i => ?_)
  rw [value]
  have start : rank * (cfg.dims tpWorld).attnMid =
      rank * (cfg.dims tpWorld).groups * cfg.oLoraRank := by
    show rank * (cfg.oLoraRank * (cfg.dims tpWorld).groups) = _
    ring
  refine Finset.sum_congr rfl fun m member => congrArg (· * _) ?_
  rw [start]
  exact scaled_sliceCols _ _ _ _ (launches.groupRank.mul_left _) launches.dim
    (launches.groupRank.mul_right _) i.isLt (Finset.mem_range.mp member)

variable (f t file behind) in
lemma rankOutput_of_refused (a : Accepts cfg tpWorld) (refused : ¬ Launches cfg) (rank : Nat) :
    rankOutput f t cfg tpWorld rank file behind =
      .error "single-token attention smoke launch failed" := by
  unfold rankOutput
  rw [accepts_iff.mpr a]
  dsimp only
  rcases run : runSingleTokenAttention f t (cfg.dims tpWorld)
    (attentionDeviceCache cfg (cfg.dims tpWorld) rank file behind) with _ | out
  · rfl
  · exact absurd (launches_of_run a run) refused

end Ranks

lemma allReduced_of_ok {f : FloatFns K} {t : AttentionStep K} {cfg : AttentionConfig} {tpWorld : Nat}
    {file : AttentionWeights K} {behind : Nat → AttentionWeights K} {out : Nat → Fin cfg.dim → K}
    (each : ∀ rank < tpWorld, rankOutput f t cfg tpWorld rank file (behind rank) = .ok (out rank)) :
    allReduced f t cfg tpWorld file behind = .ok (∑ rank ∈ Finset.range tpWorld, out rank) := by
  have all : (List.range tpWorld).mapM
      (fun rank => rankOutput f t cfg tpWorld rank file (behind rank)) =
        .ok ((List.range tpWorld).map out) := by
    refine mapM_ok.mpr (List.forall₂_map_right_iff.mpr (List.forall₂_same.mpr ?_))
    exact fun rank member => each rank (List.mem_range.mp member)
  unfold allReduced
  rw [all]
  rfl

lemma allReduced_of_error {f : FloatFns K} {t : AttentionStep K} {cfg : AttentionConfig}
    {tpWorld : Nat} {file : AttentionWeights K} {behind : Nat → AttentionWeights K} {error : String}
    (pos : 0 < tpWorld)
    (first : rankOutput f t cfg tpWorld 0 file (behind 0) = .error error) :
    allReduced f t cfg tpWorld file behind = .error error := by
  obtain ⟨n, rfl⟩ := Nat.exists_eq_succ_of_ne_zero pos.ne'
  unfold allReduced
  rw [List.range_succ_eq_map, List.mapM_cons, first]
  rfl

lemma allReduced_one {f : FloatFns K} {t : AttentionStep K} {cfg : AttentionConfig}
    {file : AttentionWeights K} {behind : Nat → AttentionWeights K} :
    allReduced f t cfg 1 file behind = rankOutput f t cfg 1 0 file (behind 0) := by
  rcases out : rankOutput f t cfg 1 0 file (behind 0) with e | x
  · exact allReduced_of_error one_pos out
  · have each : ∀ rank < 1, rankOutput f t cfg 1 rank file (behind rank) = .ok x := by
      intro rank lt
      obtain rfl := Nat.lt_one_iff.mp lt
      exact out
    rw [allReduced_of_ok each, Finset.sum_range_one]

section Sum

variable {f : FloatFns K} {t : AttentionStep K} {cfg : AttentionConfig} {tpWorld : Nat}
  {file : AttentionWeights K}

variable (f t file) in
/-- The parts of the ranks add up to the product with `wo_b`. -/
theorem allReduced_eq (a : Accepts cfg tpWorld) (launches : Launches cfg)
    (behind : Nat → AttentionWeights K) (fits : ∀ rank < tpWorld, RowsFit cfg rank) :
    allReduced f t cfg tpWorld file behind = .ok fun i =>
      matvec (rankMid f t (cfg.dims 1) file) file.woB file.woBScale (cfg.oLoraRank * cfg.oGroups)
        i := by
  have each (rank : Nat) (lt : rank < tpWorld) :
      rankOutput f t cfg tpWorld rank file (behind rank) = .ok fun i =>
        ∑ m ∈ Finset.range (cfg.dims tpWorld).attnMid,
          scaled 128 fp8E4m3Value fp8E8m0Value file.woB file.woBScale
              (cfg.oLoraRank * cfg.oGroups) i (rank * (cfg.dims tpWorld).attnMid + m) *
            rankMid f t (cfg.dims 1) file (rank * (cfg.dims tpWorld).attnMid + m) := by
    rw [rankOutput_of_launches a launches]
    refine congrArg Except.ok (funext fun i => Finset.sum_congr rfl fun m member => ?_)
    rw [rankMid_rank a launches (fits rank lt) (Finset.mem_range.mp member)]
  have total : tpWorld * (cfg.dims tpWorld).attnMid = cfg.oLoraRank * cfg.oGroups := by
    show tpWorld * (cfg.oLoraRank * (cfg.oGroups / tpWorld)) = _
    rw [Nat.mul_left_comm, a.groups_total]
  rw [allReduced_of_ok each]
  refine congrArg Except.ok (funext fun i => ?_)
  rw [Finset.sum_apply, ← total]
  exact sum_parts (fun m => scaled 128 fp8E4m3Value fp8E8m0Value file.woB file.woBScale _ i m *
    rankMid f t (cfg.dims 1) file m) _ _

omit [LinearOrder K] in
lemma linear_eq {x : Nat → K} {weight scale : Nat → UInt8} {cols : Nat} (blocks : 128 ∣ cols) :
    linear x weight scale cols = matvec x weight scale cols := by
  have count : (cols + 127) / 128 = cols / 128 := by omega
  funext row
  unfold linear
  rw [count]
  rfl

lemma forward_eq (a : Accepts cfg tpWorld) (launches : Launches cfg) :
    forward f t cfg file =
      matvec (rankMid f t (cfg.dims 1) file) file.woB file.woBScale
        (cfg.oLoraRank * cfg.oGroups) := by
  have mid : 128 ∣ cfg.oGroups * cfg.oLoraRank := launches.groupRank.mul_left _
  have kvDim : (cfg.dims 1).kvDim = cfg.headDim := a.oneHead
  have kv : kvNormRow f t (cfg.dims 1) file = actQuantRow f (headwise cfg.headDim
      (fun _ => ropeHead f t cfg.headDim cfg.ropeDim false 0)
      (rmsnorm f (matvec (rmsnorm f t.x file.attnNorm cfg.dim) file.wkv file.wkvScale cfg.dim)
        file.kvNorm cfg.headDim)) (cfg.headDim - cfg.ropeDim) := by
    unfold kvNormRow
    rw [kvDim]
    rfl
  unfold forward rankMid rankValue
  rw [kv, a.one.groupDim_eq]
  simp only [linear_eq launches.dim, linear_eq launches.qADim, linear_eq launches.groupDim,
    linear_eq mid]
  rw [Nat.mul_comm cfg.oGroups]
  rfl

end Sum

end PocketMoE.Engine
