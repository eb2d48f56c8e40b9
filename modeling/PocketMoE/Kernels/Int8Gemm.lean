import Mathlib.Algebra.BigOperators.Ring.Finset
import Mathlib.Algebra.Order.BigOperators.Group.Finset
import Mathlib.Data.Finset.Lattice.Fold
import Mathlib.Data.List.GetD
import Mathlib.Data.Rat.Floor
import PocketMoE.Lib.Numerals
import PocketMoE.Lib.Rounding
import PocketMoE.Lib.TileGrid
import PocketMoE.Lib.Word

/-!
# The int8 weight GEMM

Model of `_wo_a_int8_gemm_kernel` with its launch in `soft_bf16_weight_gemm_int8_triton`, and of
`soft_bf16_weight_gemm_int8_torch` (`kernels/ops.py`). Activations and scales are exact; the
accumulator of the kernel is 32 bits wide, the product of `torch._int_mm` an integer.

The two quantise a value at a half differently, and the accumulator can overflow: `gemms_agree_iff` says
when they return the same.
-/

namespace PocketMoE.Kernels.Int8Gemm

open PocketMoE.Lib

variable {R : Type} [Field R] [LinearOrder R] [IsStrictOrderedRing R] [FloorRing R]

/-- The arguments of both functions: `x` of `m` rows, `weight_q` of `n` rows, both of width `k`, row
after row, and a scale for each row of weights. -/
structure Args (R : Type) where
  m : ℕ
  n : ℕ
  k : ℕ
  kPos : 0 < k
  x : ℕ → R
  weightQ : ℕ → Int8
  weightS : ℕ → R

/-- A row of `x` alone. -/
def Args.row (args : Args R) (r : ℕ) : Args R :=
  { args with m := 1, x := fun i => args.x (r * args.k + i) }

/-- The tile sizes the autotuner picks. -/
structure Config where
  blockM : ℕ
  blockN : ℕ
  blockK : ℕ
  posM : 0 < blockM
  posN : 0 < blockN
  posK : 0 < blockK

variable (args : Args R) (config : Config)

/-- `weight_q.transpose(0, 1).contiguous()` -/
def transposed : ℕ → Int8 := fun i => args.weightQ (i % args.n * args.k + i / args.n)

/-- `torch.clamp(.., -127, 127)` -/
def clamp (q : ℤ) : ℤ := max (-127) (min 127 q)

section Kernel

/-- A masked load of `x`, at a row and a lane of the tile `k0`. -/
def loadX (offsM k0 t : ℕ) : R :=
  if offsM < args.m ∧ k0 * config.blockK + t < args.k then
    args.x (offsM * args.k + t + k0 * config.blockK)
  else 0

/-- A masked load of the transposed weights. -/
def loadW (offsN k0 t : ℕ) : ℤ :=
  if offsN < args.n ∧ k0 * config.blockK + t < args.k then
    (transposed args (offsN + t * args.n + k0 * config.blockK * args.n)).toInt
  else 0

/-- `x_scale` of a row. -/
def xScale (offsM : ℕ) : R :=
  let amax := loop (List.range (cdiv args.k config.blockK)) (fun k0 s =>
    max s ((Finset.range config.blockK).sup' (Finset.nonempty_range_iff.mpr config.posK.ne')
      fun t => |loadX args config offsM k0 t|)) 0
  max amax (1 / 1000000) / 127

/-- `tl.clamp(tl.math.floor(v + 0.5), -127.0, 127.0)` -/
def quantUp (v : R) : ℤ := clamp (halfUp v)

/-- The accumulator of a program at a row and a column. -/
def acc (offsM offsN : ℕ) : ℤ :=
  loop (List.range (cdiv args.k config.blockK)) (fun k0 acc =>
    let dot := ∑ t ∈ Finset.range config.blockK,
      quantUp (loadX args config offsM k0 t / xScale args config offsM) *
        loadW args config offsN k0 t
    (acc + dot).bmod (2 ^ 32)) 0

/-- The stores of a program. -/
def programStores (pid : ℕ × ℕ) : List ((ℕ × ℕ) × R) :=
  ((List.range config.blockM ×ˢ List.range config.blockN).filter fun p =>
    decide (pid.1 * config.blockM + p.1 < args.m) &&
      decide (pid.2 * config.blockN + p.2 < args.n)).map fun p =>
    let offsM := pid.1 * config.blockM + p.1
    let offsN := pid.2 * config.blockN + p.2
    let wScale := if offsN < args.n then args.weightS offsN else 0
    ((offsM, offsN), acc args config offsM offsN * xScale args config offsM * wScale)

/-- The launched grid. -/
def grid : List (ℕ × ℕ) :=
  List.range (cdiv args.m config.blockM) ×ˢ List.range (cdiv args.n config.blockN)

/-- `soft_bf16_weight_gemm_int8_triton`: the output after the programs have stored to it, in some
order. -/
def gemmTriton (order : List (ℕ × ℕ)) (empty : ℕ × ℕ → R) : ℕ × ℕ → R :=
  loop (order.flatMap (programStores args config)) (fun s y => Function.update y s.1 s.2) empty

end Kernel

section Torch

/-- `x_scales` -/
def xScales (r : ℕ) : R :=
  let amax := (Finset.range args.k).sup' (Finset.nonempty_range_iff.mpr args.kPos.ne')
    fun t => |args.x (r * args.k + t)|
  max amax (1 / 1000000) / 127

/-- `torch.clamp(torch.round(v), -127, 127)` -/
def quant (v : R) : ℤ := clamp (halfEven v)

/-- A row of `x_q`. -/
def xQ (r : ℕ) : ℕ → ℤ := fun t => quant (args.x (r * args.k + t) / xScales args r)

/-- The rows of zeros that are added, for at least 24 and a multiple of 8. -/
def padRows (m : ℕ) : ℕ :=
  let padRows := 24 - m
  let rem := (m + padRows) % 8
  if rem ≠ 0 then padRows + (8 - rem) else padRows

/-- `torch._int_mm` of some rows with the transposed weights. -/
def intMm (flat : List (ℕ → ℤ)) : List (ℕ → ℤ) :=
  flat.map fun row c =>
    ∑ t ∈ Finset.range args.k, row t * (transposed args (t * args.n + c)).toInt

/-- `soft_bf16_weight_gemm_int8_torch` -/
def gemmTorch : List (ℕ → R) :=
  let rows := List.range args.m
  let flat := rows.map (xQ args) ++ List.replicate (padRows args.m) fun _ => 0
  let xScalesFlat := rows.map (xScales args) ++ List.replicate (padRows args.m) 0
  let prod := (intMm args flat).take args.m
  List.zipWith (fun row s c => (row c : R) * s * args.weightS c) prod (xScalesFlat.take args.m)

end Torch

/-- An entry of a list of rows. -/
def entry (rows : List (ℕ → R)) (r c : ℕ) : R := rows.getD r (fun _ => 0) c

/-- Whatever the tiles, the order of the programs and the contents of a fresh output, both return
the same, and for a row what they return for it alone. -/
def Agree : Prop :=
  ∀ config order empty, order.Perm (grid args config) → ∀ r < args.m, ∀ c < args.n,
    gemmTriton args config order empty (r, c) = entry (gemmTorch args) r c ∧
    entry (gemmTorch (args.row r)) 0 c = entry (gemmTorch args) r c ∧
    ∀ config' order' empty', order'.Perm (grid (args.row r) config') →
      gemmTriton (args.row r) config' order' empty' (0, c) =
        gemmTriton args config order empty (r, c)

section Quantise

lemma clamp_of_le {q : ℤ} (bound : |q| ≤ 127) : clamp q = q := by
  rw [abs_le] at bound
  unfold clamp
  omega

lemma quantUp_eq {v : R} (bound : |v| ≤ 127) :
    quantUp v = quant v + if EvenHalf v then 1 else 0 := by
  have even : |halfEven v| ≤ 127 := halfEven_abs_le (by exact_mod_cast bound)
  have up : |halfUp v| ≤ 127 := by
    rw [abs_le] at bound ⊢
    unfold halfUp
    constructor
    · rw [Int.le_floor]
      push_cast
      linarith
    · have below : ⌊v + 1 / 2⌋ < 128 := by
        rw [Int.floor_lt]
        push_cast
        linarith
      omega
  unfold quantUp quant
  rw [clamp_of_le even, clamp_of_le up, halfUp_eq]

variable {args}

lemma xScales_pos (r : ℕ) : 0 < xScales args r := by
  unfold xScales
  simp only
  have small : (0 : R) < 1 / 1000000 := by norm_num
  exact div_pos (lt_max_of_lt_right small) (by norm_num)

lemma scaled_le {r t : ℕ} (inside : t < args.k) :
    |args.x (r * args.k + t) / xScales args r| ≤ 127 := by
  have pos : 0 < xScales args r := xScales_pos r
  rw [abs_div, abs_of_pos pos, div_le_iff₀ pos]
  have most : |args.x (r * args.k + t)| ≤ max _ (1 / 1000000) :=
    (Finset.le_sup' (fun t => |args.x (r * args.k + t)|) (Finset.mem_range.mpr inside)).trans
      (le_max_left _ _)
  refine most.trans_eq ?_
  unfold xScales
  simp only
  field_simp

end Quantise

section KernelRow

variable {args config} {r c : ℕ}

omit [LinearOrder R] [IsStrictOrderedRing R] [FloorRing R] in
lemma loadX_eq (row : r < args.m) (k0 t : ℕ) :
    loadX args config r k0 t =
      if t < args.k - k0 * config.blockK then args.x (r * args.k + (k0 * config.blockK + t))
      else 0 := by
  unfold loadX
  by_cases inside : t < args.k - k0 * config.blockK
  · rw [if_pos inside, if_pos ⟨row, by omega⟩]
    congr 1
    ring
  · rw [if_neg inside, if_neg (by omega)]

omit [Field R] [LinearOrder R] [IsStrictOrderedRing R] [FloorRing R] in
lemma loadW_eq (col : c < args.n) (k0 t : ℕ) :
    loadW args config c k0 t =
      if t < args.k - k0 * config.blockK then
        (args.weightQ (c * args.k + (k0 * config.blockK + t))).toInt
      else 0 := by
  unfold loadW
  by_cases inside : t < args.k - k0 * config.blockK
  · have address : c + t * args.n + k0 * config.blockK * args.n =
        c + args.n * (k0 * config.blockK + t) := by ring
    rw [if_pos inside, if_pos ⟨col, by omega⟩, address, transposed, Nat.add_mul_mod_self_left,
      Nat.mod_eq_of_lt col, Nat.add_mul_div_left _ _ (Nat.zero_lt_of_lt col), Nat.div_eq_of_lt col,
      Nat.zero_add]
  · rw [if_neg inside, if_neg (by omega)]

lemma xScale_eq (row : r < args.m) : xScale args config r = xScales args r := by
  unfold xScale xScales
  simp only
  congr 1
  apply eq_of_forall_ge_iff
  intro bound
  rw [max_le_iff, max_le_iff]
  apply and_congr_left
  intro small
  have nonneg : (0 : R) ≤ bound := le_trans (by norm_num) small
  have tiles : ∀ order : List ℕ, ∀ s : R,
      loop order (fun k0 s => max s ((Finset.range config.blockK).sup'
        (Finset.nonempty_range_iff.mpr config.posK.ne') fun t =>
          |loadX args config r k0 t|)) s ≤ bound ↔
      s ≤ bound ∧ ∀ k0 ∈ order, ∀ t < config.blockK, |loadX args config r k0 t| ≤ bound := by
    intro order
    induction order with
    | nil => simp
    | cons k0 order ih =>
      intro s
      rw [loop_cons, ih, max_le_iff, Finset.sup'_le_iff]
      simp only [Finset.mem_range, List.forall_mem_cons, and_assoc]
  rw [tiles, Finset.sup'_le_iff]
  simp only [nonneg, true_and, List.mem_range, Finset.mem_range]
  constructor
  · intro all i inside
    have reach := le_cdiv_mul config.posK args.k
    have tile : i / config.blockK < cdiv args.k config.blockK :=
      Nat.div_lt_of_lt_mul (by rw [Nat.mul_comm]; omega)
    have split := Nat.div_add_mod' i config.blockK
    have here := all _ tile _ (Nat.mod_lt i config.posK)
    rwa [loadX_eq row, if_pos (by omega), split] at here
  · intro all k0 _ t _
    rw [loadX_eq row]
    split_ifs with inside
    · exact all _ (by omega)
    · rwa [abs_zero]

variable (args) in
/-- The integer product of a row and a column, by a quantiser. -/
def product (quantiser : R → ℤ) (r c : ℕ) : ℤ :=
  ∑ t ∈ Finset.range args.k, quantiser (args.x (r * args.k + t) / xScales args r) *
    (args.weightQ (c * args.k + t)).toInt

lemma acc_eq (row : r < args.m) (col : c < args.n) :
    acc args config r c = (product args quantUp r c).bmod (2 ^ 32) := by
  unfold acc product
  simp only
  rw [← sum_tail config.posK args.k]
  have wrapped := loop_bmod (List.range (cdiv args.k config.blockK)) (fun k0 =>
    ∑ t ∈ Finset.range config.blockK, quantUp (loadX args config r k0 t / xScale args config r) *
      loadW args config c k0 t) 0 (2 ^ 32)
  rw [Int.zero_bmod, zero_add] at wrapped
  refine wrapped.trans ?_
  congr 1
  change ∑ k0 ∈ Finset.range (cdiv args.k config.blockK), _ = _
  refine Finset.sum_congr rfl fun k0 _ => ?_
  refine Finset.sum_congr rfl fun t _ => ?_
  rw [loadX_eq row, loadW_eq col, xScale_eq row]
  split_ifs
  · rfl
  · rw [mul_zero]

end KernelRow

section Outputs

variable {args config}

/-- An entry the kernel stores. -/
def tritonEntry (args : Args R) (p : ℕ × ℕ) : R :=
  (product args quantUp p.1 p.2).bmod (2 ^ 32) * xScales args p.1 * args.weightS p.2

lemma programStores_eq (pid : ℕ × ℕ) :
    programStores args config pid =
      (cells config.blockM args.m pid.1 ×ˢ cells config.blockN args.n pid.2).map
        fun p => (p, tritonEntry args p) := by
  rw [← lanes_eq, List.map_map]
  apply List.map_congr_left
  intro p inside
  have bounds := (List.mem_filter.mp inside).2
  rw [Bool.and_eq_true, decide_eq_true_eq, decide_eq_true_eq] at bounds
  simp only [Function.comp_apply]
  rw [if_pos bounds.2, acc_eq bounds.1 bounds.2, xScale_eq bounds.1]
  rfl

lemma gemmTriton_eq {order : List (ℕ × ℕ)} (perm : order.Perm (grid args config))
    (empty : ℕ × ℕ → R) {r c : ℕ} (row : r < args.m) (col : c < args.n) :
    gemmTriton args config order empty (r, c) = tritonEntry args (r, c) := by
  have all : (order.flatMap (programStores args config)).Perm
      ((List.range args.m ×ˢ List.range args.n).map fun p => (p, tritonEntry args p)) := by
    rw [funext programStores_eq, ← List.map_flatMap]
    apply List.Perm.map
    exact (perm.flatMap_right _).trans (cells_tiles config.posM config.posN args.m args.n)
  apply stores_eq all
  exact List.pair_mem_product.mpr ⟨List.mem_range.mpr row, List.mem_range.mpr col⟩

omit [IsStrictOrderedRing R] in
lemma gemmTorch_eq {r c : ℕ} (row : r < args.m) (col : c < args.n) :
    entry (gemmTorch args) r c =
      (product args quant r c : R) * xScales args r * args.weightS c := by
  have rows : gemmTorch args = (List.range args.m).map fun r c =>
      ((∑ t ∈ Finset.range args.k,
        xQ args r t * (transposed args (t * args.n + c)).toInt : ℤ) : R) *
          xScales args r * args.weightS c := by
    unfold gemmTorch intMm
    simp only
    rw [List.map_append, List.map_map, List.take_left' (by simp), List.take_left' (by simp),
      List.zipWith_map, List.zipWith_self]
    rfl
  have weights : ∀ t, transposed args (t * args.n + c) = args.weightQ (c * args.k + t) := by
    intro t
    unfold transposed
    rw [Nat.add_comm (t * args.n) c, Nat.add_mul_mod_self_right, Nat.mod_eq_of_lt col,
      Nat.add_mul_div_right _ _ (Nat.zero_lt_of_lt col), Nat.div_eq_of_lt col, Nat.zero_add]
  unfold entry
  rw [rows, List.getD_eq_getElem _ _ (by simpa using row)]
  simp only [List.getElem_map, List.getElem_range, weights]
  rfl

omit [IsStrictOrderedRing R] [FloorRing R] in
lemma xScales_row (r : ℕ) : xScales (args.row r) 0 = xScales args r := by
  unfold xScales Args.row
  simp only [Nat.zero_mul, Nat.zero_add]

omit [IsStrictOrderedRing R] [FloorRing R] in
lemma product_row (quantiser : R → ℤ) (r c : ℕ) :
    product (args.row r) quantiser 0 c = product args quantiser r c := by
  unfold product
  simp only [xScales_row]
  simp only [Args.row, Nat.zero_mul, Nat.zero_add]

/-- The weights of a column at the places where the activation is a half above an even integer. -/
def halves (args : Args R) (r c : ℕ) : ℤ :=
  ∑ t ∈ Finset.range args.k,
    if EvenHalf (args.x (r * args.k + t) / xScales args r) then
      (args.weightQ (c * args.k + t)).toInt
    else 0

lemma product_quantUp (r c : ℕ) :
    product args quantUp r c = product args quant r c + halves args r c := by
  unfold product halves
  rw [← Finset.sum_add_distrib]
  refine Finset.sum_congr rfl fun t inside => ?_
  rw [quantUp_eq (scaled_le (Finset.mem_range.mp inside)), add_mul]
  split_ifs
  · rw [one_mul]
  · rw [zero_mul]

omit [IsStrictOrderedRing R] in
lemma halves_le (r c : ℕ) : |halves args r c| ≤ args.k * 128 := by
  unfold halves
  refine (Finset.abs_sum_le_sum_abs _ _).trans ?_
  have each : ∀ t ∈ Finset.range args.k,
      |if EvenHalf (args.x (r * args.k + t) / xScales args r) then
        (args.weightQ (c * args.k + t)).toInt else 0| ≤ 128 := by
    intro t _
    have low := (args.weightQ (c * args.k + t)).le_toInt
    have high := (args.weightQ (c * args.k + t)).toInt_lt
    split_ifs
    · rw [abs_le]
      omega
    · decide
  have total := Finset.sum_le_card_nsmul _ _ _ each
  rwa [Finset.card_range, nsmul_eq_mul] at total

lemma wrapped_iff (small : args.k < 133000) (r c : ℕ) :
    (product args quantUp r c).bmod (2 ^ 32) = product args quant r c ↔
      halves args r c = 0 ∧ Word.Fits 32 (product args quant r c) := by
  rw [product_quantUp]
  constructor
  · intro same
    have fits : Word.Fits 32 (product args quant r c) := by
      rw [← same]
      exact Word.fits_bmod (by decide) _
    have none : (halves args r c).bmod (2 ^ 32) = 0 := by
      have apart := Int.bmod_eq_bmod_iff_bmod_sub_eq_zero.mp
        (same.trans (Word.bmod_of_fits fits).symm)
      rwa [add_sub_cancel_left] at apart
    have bound : |halves args r c| ≤ args.k * 128 := halves_le r c
    rw [abs_le] at bound
    rw [Word.bmod_of_fits (by unfold Word.Fits; omega)] at none
    exact ⟨none, fits⟩
  · rintro ⟨none, fits⟩
    rw [none, add_zero, Word.bmod_of_fits fits]

end Outputs

/-- When the implementations agree: in every column with a scale, the weights at the halves cancel
and the product has 32 bits. -/
theorem gemms_agree_iff (small : args.k < 133000) :
    Agree args ↔ ∀ r < args.m, ∀ c < args.n, args.weightS c ≠ 0 →
      halves args r c = 0 ∧ Word.Fits 32 (product args quant r c) := by
  have entries : ∀ r c, tritonEntry args (r, c) =
      (product args quant r c : R) * xScales args r * args.weightS c ↔
      (args.weightS c ≠ 0 → halves args r c = 0 ∧ Word.Fits 32 (product args quant r c)) := by
    intro r c
    unfold tritonEntry
    by_cases zero : args.weightS c = 0
    · simp [zero]
    · simp only [ne_eq, zero, not_false_eq_true, true_implies, mul_eq_mul_right_iff, or_false,
        (xScales_pos r).ne', Int.cast_inj, ← wrapped_iff small]
  constructor
  · intro agree r row c col
    rw [← entries]
    have here := (agree ⟨1, 1, 1, by decide, by decide, by decide⟩ _ (fun _ => 0) (List.Perm.refl _)
      r row c col).1
    rwa [gemmTriton_eq (List.Perm.refl _) _ row col, gemmTorch_eq row col] at here
  · intro holds config order empty perm r row c col
    have alone : 0 < (args.row r).m := Nat.one_pos
    have colAlone : c < (args.row r).n := col
    refine ⟨?_, ?_, ?_⟩
    · rw [gemmTriton_eq perm _ row col, gemmTorch_eq row col]
      exact (entries r c).mpr (holds r row c col)
    · rw [gemmTorch_eq alone colAlone, gemmTorch_eq row col, product_row,
        xScales_row]
      rfl
    · intro config' order' empty' perm'
      rw [gemmTriton_eq perm _ row col, gemmTriton_eq perm' _ alone colAlone]
      unfold tritonEntry
      rw [product_row, xScales_row]
      rfl

/-- Rows without halves. -/
theorem gemms_agree_iff_two :
    let args : Args ℚ := ⟨2, 1, 2, by decide, fun i => i + 1, fun _ => 1, fun _ => 1⟩
    Agree args ↔ ∀ r < args.m, ∀ c < args.n, args.weightS c ≠ 0 →
      halves args r c = 0 ∧ Word.Fits 32 (product args quant r c) :=
  gemms_agree_iff _ (by decide)

/-- A half with the scale 1: the kernel rounds it to 1, `torch.round` to 0. -/
theorem gemms_not_agree :
    ¬Agree (R := ℚ) ⟨1, 1, 2, by decide, fun i => if i = 0 then 1 / 2 else 127,
      fun i => if i = 0 then 1 else 0, fun _ => 1⟩ := by
  intro agree
  have here := (agree ⟨1, 1, 1, by decide, by decide, by decide⟩ _ (fun _ => 0) (List.Perm.refl _)
    0 (by decide) 0 (by decide)).1
  rw [gemmTriton_eq (List.Perm.refl _) _ (by decide) (by decide),
    gemmTorch_eq (by decide) (by decide)] at here
  revert here
  decide +kernel

end PocketMoE.Kernels.Int8Gemm
