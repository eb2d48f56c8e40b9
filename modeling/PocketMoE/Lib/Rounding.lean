import Mathlib.Algebra.Order.Field.Power
import Mathlib.Algebra.Order.Floor.Ring
import Mathlib.Algebra.Order.Ring.Abs
import Mathlib.Data.Int.Log
import Mathlib.Data.Rat.Floor
import Mathlib.Tactic.FieldSimp
import Mathlib.Tactic.Lemma
import Mathlib.Tactic.Linarith
import Mathlib.Tactic.Positivity
import Mathlib.Tactic.Ring
import PocketMoE.Lib.Ieee
import PocketMoE.Lib.Numerals

/-!
# Rounding to integers

`halfEven` takes the nearest integer and of two nearest the even one; `halfUp` takes the upper one.
They differ at a half above an even integer (`halfUp_eq`). Rounding to a coarser grid is the same as
rounding to integers where an entry of the coarser grid is near (`halfEven_coarse_iff`).
-/

namespace PocketMoE.Lib

variable {R : Type*} [Field R] [LinearOrder R] [IsStrictOrderedRing R] [FloorRing R]

/-- The nearest integer, the upper one of two. -/
def halfUp (v : R) : ℤ := ⌊v + 1 / 2⌋

/-- The nearest integer, the even one of two. -/
def halfEven (v : R) : ℤ :=
  let low := ⌊v⌋
  if v - low < 1 / 2 then low
  else if 1 / 2 < v - low then low + 1
  else if Even low then low else low + 1

/-- A half above an even integer: there the two roundings take different ones. -/
def EvenHalf (v : R) : Prop := Int.fract v = 1 / 2 ∧ Even ⌊v⌋

instance (v : R) : Decidable (EvenHalf v) := inferInstanceAs (Decidable (_ ∧ _))

lemma halfEven_near (v : R) : |v - halfEven v| ≤ 1 / 2 := by
  have hlow := Int.floor_le v
  have hhigh := Int.lt_floor_add_one v
  unfold halfEven
  rw [abs_le]
  simp only
  split_ifs with hdown hup heven
  · constructor <;> linarith
  · push_cast
    constructor <;> linarith
  · constructor <;> linarith
  · push_cast
    constructor <;> linarith

lemma halfEven_of_lt {v : R} {n : ℤ} (near : |v - n| < 1 / 2) : halfEven v = n := by
  have hround := halfEven_near v
  rw [abs_lt] at near
  rw [abs_le] at hround
  have hlow : (halfEven v : R) < ((n + 1 : ℤ) : R) := by
    push_cast
    linarith
  have hhigh : (n : R) < ((halfEven v + 1 : ℤ) : R) := by
    push_cast
    linarith
  have := Int.cast_lt.mp hlow
  have := Int.cast_lt.mp hhigh
  omega

lemma halfEven_of_even {v : R} {n : ℤ} (near : |v - n| ≤ 1 / 2) (even : Even n) :
    halfEven v = n := by
  rcases near.lt_or_eq with lt | half
  · exact halfEven_of_lt lt
  · rcases abs_eq (by norm_num : (0 : R) ≤ 1 / 2) |>.mp half with above | below
    · have hfloor : ⌊v⌋ = n := by
        rw [Int.floor_eq_iff]
        constructor <;> linarith
      unfold halfEven
      simp only [hfloor]
      rw [above, if_neg (lt_irrefl _), if_neg (lt_irrefl _), if_pos even]
    · have hfloor : ⌊v⌋ = n - 1 := by
        rw [Int.floor_eq_iff]
        push_cast
        constructor <;> linarith
      have hpart : v - ((n - 1 : ℤ) : R) = 1 / 2 := by
        push_cast
        linarith
      have hodd : ¬Even (n - 1) := by
        rw [Int.not_even_iff_odd]
        exact even.sub_odd odd_one
      unfold halfEven
      simp only [hfloor]
      rw [hpart, if_neg (lt_irrefl _), if_neg (lt_irrefl _), if_neg hodd, sub_add_cancel]

lemma halfUp_eq (v : R) : halfUp v = halfEven v + if EvenHalf v then 1 else 0 := by
  have hlow := Int.floor_le v
  have hhigh := Int.lt_floor_add_one v
  have half_iff : EvenHalf v ↔ v - ⌊v⌋ = 1 / 2 ∧ Even ⌊v⌋ := Iff.rfl
  unfold halfUp halfEven
  simp only [half_iff]
  rcases lt_trichotomy (v - ⌊v⌋) (1 / 2) with down | half | up
  · rw [if_pos down, if_neg (fun h => down.ne h.1), add_zero, Int.floor_eq_iff]
    constructor <;> linarith
  · have hfloor : ⌊v + 1 / 2⌋ = ⌊v⌋ + 1 := by
      rw [Int.floor_eq_iff]
      push_cast
      constructor <;> linarith
    rw [if_neg half.not_lt, if_neg half.not_gt, hfloor]
    by_cases even : Even ⌊v⌋
    · rw [if_pos even, if_pos ⟨half, even⟩]
    · rw [if_neg even, if_neg (fun h => even h.2), add_zero]
  · rw [if_neg up.not_gt, if_pos up, if_neg (fun h => up.ne' h.1), add_zero, Int.floor_eq_iff]
    push_cast
    constructor <;> linarith

lemma halfEven_abs_le {v : R} {n : ℤ} (bound : |v| ≤ n) : |halfEven v| ≤ n := by
  have hround := halfEven_near v
  rw [abs_le] at bound hround
  have hlow : (halfEven v : R) < ((n + 1 : ℤ) : R) := by
    push_cast
    linarith
  have hhigh : ((-n - 1 : ℤ) : R) < (halfEven v : R) := by
    push_cast
    linarith
  have := Int.cast_lt.mp hlow
  have := Int.cast_lt.mp hhigh
  rw [abs_le]
  omega

lemma halfEven_coarse_iff {c : ℤ} (pos : 0 < c) (even : Even c) (v : R) :
    halfEven v = halfEven (v / c) * c ↔ ∃ k : ℤ, |v - k * c| ≤ 1 / 2 := by
  constructor
  · intro same
    refine ⟨halfEven (v / c), ?_⟩
    have hround := halfEven_near v
    rw [same] at hround
    push_cast at hround
    exact hround
  · rintro ⟨k, near⟩
    have hpos : (0 : R) < c := Int.cast_pos.mpr pos
    have htwo : (2 : R) ≤ c := by
      obtain ⟨d, rfl⟩ := even
      have : (1 : ℤ) ≤ d := by omega
      have : (1 : R) ≤ d := by exact_mod_cast this
      push_cast
      linarith
    have hfine : halfEven v = k * c := by
      apply halfEven_of_even
      · push_cast
        exact near
      · exact even.mul_left k
    have hcoarse : halfEven (v / c) = k := by
      apply halfEven_of_lt
      have hscale : v / c - k = (v - k * c) / c := by field_simp
      rw [hscale, abs_div, abs_of_pos hpos, div_lt_iff₀ hpos]
      linarith
    rw [hfine, hcoarse]

lemma halfEven_tie {v : R} (tie : |v - halfEven v| = 1 / 2) : Even (halfEven v) := by
  have hlow := Int.floor_le v
  have hhigh := Int.lt_floor_add_one v
  revert tie
  unfold halfEven
  simp only
  split_ifs with hdown hup heven
  · intro tie
    rcases abs_eq (by norm_num : (0 : R) ≤ 1 / 2) |>.mp tie with h | h <;> linarith
  · push_cast
    intro tie
    rcases abs_eq (by norm_num : (0 : R) ≤ 1 / 2) |>.mp tie with h | h <;> linarith
  · exact fun _ => heven
  · exact fun _ => (Int.not_even_iff_odd.mp heven).add_odd odd_one

lemma halfEven_neg (v : R) : halfEven (-v) = -halfEven v := by
  have near : |-v - ((-halfEven v : ℤ) : R)| = |v - halfEven v| := by
    rw [← abs_neg]
    congr 1
    push_cast
    ring
  rcases (halfEven_near v).lt_or_eq with lt | tie
  · exact halfEven_of_lt (near.trans_lt lt)
  · exact halfEven_of_even (near.trans_le tie.le) (halfEven_tie tie).neg

section Grids

/-- The nearest multiple of a unit. -/
def toGrid (unit v : R) : R := halfEven (v / unit) * unit

lemma toGrid_near {unit : R} (pos : 0 < unit) (v : R) : |v - toGrid unit v| ≤ unit / 2 := by
  have hround := halfEven_near (v / unit)
  have hscale : v - toGrid unit v = (v / unit - halfEven (v / unit)) * unit := by
    unfold toGrid
    field_simp
  rw [hscale, abs_mul, abs_of_pos pos]
  calc |v / unit - halfEven (v / unit)| * unit ≤ 1 / 2 * unit :=
        mul_le_mul_of_nonneg_right hround pos.le
    _ = unit / 2 := by ring

lemma toGrid_neg (unit v : R) : toGrid unit (-v) = -toGrid unit v := by
  unfold toGrid
  rw [neg_div, halfEven_neg]
  push_cast
  ring

lemma toGrid_coarse_iff {unit : R} (pos : 0 < unit) {c : ℤ} (posC : 0 < c) (even : Even c) (v : R) :
    toGrid unit v = toGrid (c * unit) v ↔ ∃ k : ℤ, |v - k * (c * unit)| ≤ unit / 2 := by
  have hc : (c : R) ≠ 0 := (Int.cast_pos.mpr posC).ne'
  have same : toGrid unit v = toGrid (c * unit) v ↔
      halfEven (v / unit) = halfEven (v / unit / c) * c := by
    unfold toGrid
    have hdiv : v / (c * unit) = v / unit / c := by field_simp
    rw [hdiv, ← mul_assoc, mul_left_inj' pos.ne']
    norm_cast
  have near (k : ℤ) : |v / unit - k * c| ≤ 1 / 2 ↔ |v - k * (c * unit)| ≤ unit / 2 := by
    have hscale : v - k * (c * unit) = (v / unit - k * c) * unit := by field_simp
    have hhalf : unit / 2 = 1 / 2 * unit := by ring
    rw [hscale, abs_mul, abs_of_pos pos, hhalf, mul_le_mul_iff_left₀ pos]
  rw [same, halfEven_coarse_iff posC even]
  simp only [near]

lemma toGrid_eq_iff (i j : ℤ) (v : R) :
    toGrid ((2 : R) ^ i) v = toGrid ((2 : R) ^ j) v ↔
      ∃ k : ℤ, |v - k * max ((2 : R) ^ i) ((2 : R) ^ j)| ≤
        min ((2 : R) ^ i) ((2 : R) ^ j) / 2 := by
  have pos (i : ℤ) : (0 : R) < 2 ^ i := zpow_pos (by norm_num) i
  have less (i j : ℤ) (lt : i < j) : toGrid ((2 : R) ^ i) v = toGrid ((2 : R) ^ j) v ↔
      ∃ k : ℤ, |v - k * (2 : R) ^ j| ≤ (2 : R) ^ i / 2 := by
    obtain ⟨d, hd⟩ := Int.eq_ofNat_of_zero_le (show 0 ≤ j - i - 1 by omega)
    have hj : (2 : R) ^ j = ((2 ^ (d + 1) : ℤ) : R) * 2 ^ i := by
      have hexp : j = ((d + 1 : ℕ) : ℤ) + i := by
        push_cast
        omega
      rw [hexp, zpow_add₀ two_ne_zero, zpow_natCast]
      push_cast
      rfl
    have even : Even ((2 : ℤ) ^ (d + 1)) := by
      rw [pow_succ]
      exact even_two.mul_left _
    rw [hj]
    exact toGrid_coarse_iff (pos i) (by positivity) even v
  rcases lt_trichotomy i j with lt | rfl | lt
  · have le : (2 : R) ^ i ≤ 2 ^ j := zpow_le_zpow_right₀ (by norm_num) lt.le
    rw [max_eq_right le, min_eq_left le]
    exact less i j lt
  · rw [max_self, min_self]
    exact iff_of_true rfl ⟨halfEven (v / 2 ^ i), toGrid_near (pos i) v⟩
  · have le : (2 : R) ^ j ≤ 2 ^ i := zpow_le_zpow_right₀ (by norm_num) lt.le
    rw [max_eq_left le, min_eq_right le, eq_comm]
    exact less j i lt

end Grids

section Formats

/-- The distance of the numbers of a format around `v`. -/
def Ieee.Format.step (f : Ieee.Format) (v : ℚ) : ℚ :=
  2 ^ (max (Int.log 2 |v|) (1 - f.bias) - f.fracBits : ℤ)

/-- The nearest number of a format, of two the one with an even fraction, for values that are not
too great for it. -/
def Ieee.Format.round (f : Ieee.Format) (v : ℚ) : ℚ := toGrid (f.step v) v

lemma Ieee.Format.step_eq (f : Ieee.Format) {v : ℚ} {j : ℤ} (low : 2 ^ j ≤ |v|)
    (high : |v| < 2 ^ (j + 1)) (normal : 1 - f.bias ≤ j) : f.step v = 2 ^ (j - f.fracBits) := by
  have pos : 0 < |v| := (zpow_pos two_pos j).trans_le low
  have hlow : j ≤ Int.log 2 |v| := by
    rw [← Int.zpow_le_iff_le_log (by decide) pos]
    exact_mod_cast low
  have hhigh : Int.log 2 |v| < j + 1 := by
    rw [← Int.lt_zpow_iff_log_lt (by decide) pos]
    exact_mod_cast high
  have hlog : Int.log 2 |v| = j := by omega
  unfold Ieee.Format.step
  rw [hlog, max_eq_left normal]

lemma Ieee.Format.round_neg (f : Ieee.Format) (v : ℚ) : f.round (-v) = -f.round v := by
  unfold Ieee.Format.round Ieee.Format.step
  rw [abs_neg, toGrid_neg]

end Formats

end PocketMoE.Lib
