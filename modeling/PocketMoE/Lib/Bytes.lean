import Mathlib.Algebra.GroupWithZero.Nat
import Mathlib.Algebra.Order.Group.Nat
import Mathlib.Tactic.Lemma

/-!
# Bytes and numbers of several bytes

A number of some width is written with its lowest byte first (`leBytes`) and read back (`leNat`). The
two are inverse to each other on the bytes of a width and the numbers that fit (`leNat_leBytes`,
`leBytes_leNat`).
-/

namespace PocketMoE.Lib

/-- A byte. -/
abbrev Byte := Fin 256

instance neZero_byte : NeZero 256 := ⟨by decide⟩

/-- The number of some bytes, the lowest first. -/
def leNat : List Byte → Nat
  | [] => 0
  | b :: bytes => b + 256 * leNat bytes

/-- The bytes of a number, the lowest first. -/
def leBytes : Nat → Nat → List Byte
  | 0, _ => []
  | width + 1, n => ⟨n % 256, Nat.mod_lt _ (by decide)⟩ :: leBytes width (n / 256)

@[simp]
lemma length_leBytes (width n : Nat) : (leBytes width n).length = width := by
  induction width generalizing n with
  | zero => rfl
  | succ width ih => rw [leBytes, List.length_cons, ih]

lemma leNat_leBytes (width n : Nat) (fits : n < 256 ^ width) : leNat (leBytes width n) = n := by
  induction width generalizing n with
  | zero => exact (Nat.lt_one_iff.mp fits).symm
  | succ width ih =>
    have rest : n / 256 < 256 ^ width := by
      rw [Nat.div_lt_iff_lt_mul (by decide), ← Nat.pow_succ]
      exact fits
    rw [leBytes, leNat, ih _ rest]
    exact Nat.mod_add_div n 256

lemma leBytes_leNat (bytes : List Byte) : leBytes bytes.length (leNat bytes) = bytes := by
  induction bytes with
  | nil => rfl
  | cons b bytes ih =>
    have low : (b + 256 * leNat bytes) % 256 = b := by
      rw [Nat.add_mul_mod_self_left]
      exact Nat.mod_eq_of_lt b.2
    have high : (b + 256 * leNat bytes) / 256 = leNat bytes := by
      have := b.2
      omega
    rw [List.length_cons, leBytes, leNat, high, ih]
    exact congrArg (· :: bytes) (Fin.ext low)

lemma leNat_lt (bytes : List Byte) : leNat bytes < 256 ^ bytes.length := by
  induction bytes with
  | nil => exact Nat.one_pos
  | cons b bytes ih =>
    have := b.2
    rw [leNat, List.length_cons, Nat.pow_succ]
    omega

end PocketMoE.Lib
