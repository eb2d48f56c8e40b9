import Mathlib.Algebra.Group.Int.Defs
import Mathlib.Algebra.Group.Nat.Defs
import Mathlib.Data.Nat.Log
import Mathlib.Tactic.Lemma
import Mathlib.Tactic.SplitIfs

/-!
# Numbers of 64 bits with a binary point

Every finite number of binary64 is a multiple of 2^-1074, so it is kept as an integer. A ratio is rounded
to the nearest number, and to the even one of two (`ofRatio`). The two zeros are one.
-/

namespace PocketMoE.Lib

/-- A number of binary64; `finite n` is n times 2^-1074. -/
inductive Double where
  | finite (units : Int)
  | infinite (negative : Bool)
  | nan
deriving DecidableEq

namespace Double

/-- The units of the number 1. -/
def one : Nat := 2 ^ 1074

/-- The quotient to the nearest integer, and to the even one of two. -/
def halfEven (n d : Nat) : Nat :=
  if 2 * (n % d) < d ∨ 2 * (n % d) = d ∧ n / d % 2 = 0 then n / d else n / d + 1

/-- The number nearest to a ratio: 53 bits of it are kept. -/
def ofRatio (n d : Nat) : Double :=
  let scaled := n * one
  let step := 2 ^ (Nat.log2 (scaled / d) + 1 - 53)
  let units := halfEven scaled (d * step) * step
  if 2 ^ 1024 * one ≤ units then .infinite false else .finite units

def neg : Double → Double
  | finite units => .finite (-units)
  | infinite negative => .infinite !negative
  | nan => .nan

/-- `std::round` of a finite number: the nearest integer, away from 0 if there are two. -/
def round (units : Int) : Int := units.sign * ((2 * units.natAbs + one) / (2 * one) : Nat)

/-- The integer that is left without the fraction. -/
def trunc (units : Int) : Int := units.tdiv one

/-! ## Integers -/

lemma one_pos : 0 < one := by
  unfold one
  exact Nat.two_pow_pos 1074

lemma pow_mul_one (k : Nat) : 2 ^ k * one = 2 ^ (k + 1074) := by
  rw [one, Nat.pow_add]

lemma halfEven_mul (q : Nat) {d : Nat} (pos : 0 < d) : halfEven (q * d) d = q := by
  rw [halfEven, Nat.mul_mod_left, Nat.mul_div_cancel _ pos, if_pos (Or.inl pos)]

lemma halfEven_mul_left (n d : Nat) {k : Nat} (pos : 0 < k) :
    halfEven (k * n) (k * d) = halfEven n d := by
  unfold halfEven
  simp only [Nat.mul_mod_mul_left, Nat.mul_div_mul_left _ _ pos, Nat.mul_left_comm 2,
    Nat.mul_lt_mul_left pos, Nat.mul_right_inj pos.ne']

lemma ofRatio_mul {q d : Nat} (pos : 0 < d) : ofRatio (q * d) d = ofRatio q 1 := by
  have scaled : q * d * one = d * (q * one) := by rw [Nat.mul_comm q, Nat.mul_assoc]
  unfold ofRatio
  dsimp only
  rw [scaled, Nat.mul_div_cancel_left _ pos, Nat.div_one, halfEven_mul_left _ _ pos, Nat.one_mul]

lemma ofRatio_small {n : Nat} (small : n < 2 ^ 53) : ofRatio n 1 = .finite (n * one : Nat) := by
  have bits : Nat.log2 (n * one / 1) + 1 - 53 ≤ 1074 := by
    rw [Nat.div_one, Nat.log2_eq_log_two]
    by_cases zero : n = 0
    · rw [zero, Nat.zero_mul, Nat.log_zero_right]
      omega
    · have below := Nat.mul_lt_mul_of_pos_right small one_pos
      rw [pow_mul_one] at below
      have log := Nat.log_lt_of_lt_pow (Nat.mul_ne_zero zero one_pos.ne') below
      omega
  unfold ofRatio
  dsimp only
  generalize Nat.log2 (n * one / 1) + 1 - 53 = k at bits
  have split : n * one = n * 2 ^ (1074 - k) * 2 ^ k := by
    rw [one, Nat.mul_assoc, ← Nat.pow_add, Nat.sub_add_cancel bits]
  have exact' : halfEven (n * one) (1 * 2 ^ k) * 2 ^ k = n * one := by
    rw [Nat.one_mul, split, halfEven_mul _ (Nat.two_pow_pos _)]
  rw [exact', if_neg]
  rw [Nat.not_le]
  refine Nat.mul_lt_mul_of_pos_right (Nat.lt_trans small ?_) one_pos
  exact Nat.pow_lt_pow_right Nat.one_lt_two (by decide)

/-- The number nearest to an integer with a sign. -/
def ofInt (n : Int) : Double := if n < 0 then (ofRatio n.natAbs 1).neg else ofRatio n.natAbs 1

lemma ofInt_small {n : Int} (small : n.natAbs < 2 ^ 53) : ofInt n = .finite (n * one) := by
  unfold ofInt
  rw [ofRatio_small small]
  split_ifs with negative
  · rw [neg, Int.natCast_mul, ← Int.neg_mul, Int.ofNat_natAbs_of_nonpos (Int.le_of_lt negative),
      Int.neg_neg]
  · rw [Int.natCast_mul, Int.natAbs_of_nonneg (Int.not_lt.mp negative)]

/-- The numbers that fit in an `int`. -/
def FitsInt (n : Int) : Prop := -2 ^ 31 ≤ n ∧ n < 2 ^ 31

instance (n : Int) : Decidable (FitsInt n) := inferInstanceAs (Decidable (_ ∧ _))

/-- A cast to `int`. It drops the fraction; where the result does not fit, any `int` may come out. -/
structure IntCast where
  cast : Double → Int
  fits : ∀ x, FitsInt (cast x)
  exact : ∀ units, FitsInt (trunc units) → cast (.finite units) = trunc units

/-- The cast that gives the least `int` for what does not fit. -/
def IntCast.least : IntCast where
  cast
    | .finite units => if FitsInt (trunc units) then trunc units else -2 ^ 31
    | _ => -2 ^ 31
  fits x := by
    have least : FitsInt (-2 ^ 31) := by decide
    cases x with
    | finite units =>
      dsimp only
      split_ifs with fits
      · exact fits
      · exact least
    | infinite negative => exact least
    | nan => exact least
  exact units fits := if_pos fits

lemma trunc_mul (n : Int) : trunc (n * one) = n := by
  rw [trunc, Int.mul_tdiv_cancel]
  exact Int.natCast_ne_zero.mpr one_pos.ne'

lemma IntCast.cast_ofInt (int : IntCast) {n : Int} : int.cast (ofInt n) = n ↔ FitsInt n := by
  constructor
  · intro eq
    rw [← eq]
    exact int.fits _
  · intro fits
    have small : n.natAbs < 2 ^ 53 := by
      unfold FitsInt at fits
      omega
    rw [ofInt_small small]
    refine (int.exact _ ?_).trans (trunc_mul n)
    rwa [trunc_mul]

/-! ## Numbers of 32 bits -/

/-- The number of binary32 nearest to an integer below its range: 24 bits are kept. -/
def toSingle (n : Nat) : Nat :=
  let step := 2 ^ (Nat.log2 n + 1 - 24)
  halfEven n step * step

lemma toSingle_small {n : Nat} (small : n < 2 ^ 24) : toSingle n = n := by
  have bits : Nat.log2 n + 1 - 24 = 0 := by
    rw [Nat.log2_eq_log_two]
    by_cases zero : n = 0
    · rw [zero, Nat.log_zero_right]
    · have log := Nat.log_lt_of_lt_pow zero small
      omega
  have whole := halfEven_mul n Nat.one_pos
  unfold toSingle
  dsimp only
  rw [bits, Nat.pow_zero, Nat.mul_one]
  rwa [Nat.mul_one] at whole

end Double

end PocketMoE.Lib
