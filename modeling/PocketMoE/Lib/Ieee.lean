import Mathlib.Algebra.Order.Field.Rat
import Mathlib.Algebra.Order.Field.Power
import Mathlib.Tactic.FieldSimp
import Mathlib.Tactic.Lemma
import Mathlib.Tactic.Linarith
import Mathlib.Tactic.Ring

/-!
# Binary floating point formats

A format has a sign bit, some bits of exponent and some of fraction. `decode` is the value of a bit
pattern, `pack` puts fields into one. A pattern of a narrow format has its value in a wider one when
the fraction is moved to the top and the exponent is counted from the other bias
(`value_widen_normal`); a subnormal pattern is brought to a leading one first
(`value_widen_subnormal`).
-/

namespace PocketMoE.Lib.Ieee

structure Format where
  expBits : ℕ
  fracBits : ℕ

def binary16 : Format := ⟨5, 10⟩

def binary32 : Format := ⟨8, 23⟩

/-- What a bit pattern stands for. The payload of a NaN is its fraction, as a part of one. -/
inductive Value where
  | finite (negative : Bool) (magnitude : ℚ)
  | infinite (negative : Bool)
  | nan (negative : Bool) (payload : ℚ)

namespace Format

variable (f : Format)

def bias : ℕ := 2 ^ (f.expBits - 1) - 1

/-- The value of a sign, an exponent field and a fraction field. -/
def value (negative : Bool) (e m : ℕ) : Value :=
  if e = 2 ^ f.expBits - 1 then
    if m = 0 then .infinite negative else .nan negative (m / 2 ^ f.fracBits)
  else if e = 0 then .finite negative (m * (2 : ℚ) ^ (1 - f.bias - f.fracBits : ℤ))
  else .finite negative ((2 ^ f.fracBits + m) * (2 : ℚ) ^ (e - f.bias - f.fracBits : ℤ))

/-- The value of a bit pattern. -/
def decode (bits : ℕ) : Value :=
  f.value (decide (bits / 2 ^ (f.expBits + f.fracBits) % 2 = 1))
    (bits / 2 ^ f.fracBits % 2 ^ f.expBits) (bits % 2 ^ f.fracBits)

/-- The bit pattern of three fields. -/
def pack (s e m : ℕ) : ℕ := (s * 2 ^ f.expBits + e) * 2 ^ f.fracBits + m

lemma decode_pack {s e m : ℕ} (hs : s < 2) (he : e < 2 ^ f.expBits) (hm : m < 2 ^ f.fracBits) :
    f.decode (f.pack s e m) = f.value (decide (s = 1)) e m := by
  have hpos : 0 < 2 ^ f.fracBits := Nat.two_pow_pos _
  have hhigh : f.pack s e m / 2 ^ f.fracBits = s * 2 ^ f.expBits + e := by
    unfold pack
    rw [Nat.mul_comm, Nat.mul_add_div hpos, Nat.div_eq_of_lt hm, Nat.add_zero]
  have hlow : f.pack s e m % 2 ^ f.fracBits = m := by
    unfold pack
    rw [Nat.mul_comm, Nat.mul_add_mod, Nat.mod_eq_of_lt hm]
  have hexp : (s * 2 ^ f.expBits + e) % 2 ^ f.expBits = e := by
    rw [Nat.mul_comm, Nat.mul_add_mod, Nat.mod_eq_of_lt he]
  have hsign : f.pack s e m / 2 ^ (f.expBits + f.fracBits) = s := by
    rw [Nat.add_comm, pow_add, ← Nat.div_div_eq_div_mul, hhigh, Nat.mul_comm,
      Nat.mul_add_div (Nat.two_pow_pos _), Nat.div_eq_of_lt he, Nat.add_zero]
  unfold decode
  rw [hsign, hhigh, hexp, hlow, Nat.mod_eq_of_lt hs]

lemma two_zpow_ne (z : ℤ) : (2 : ℚ) ^ z ≠ 0 := zpow_ne_zero z two_ne_zero

lemma value_widen_normal (f g : Format) {d : ℕ} (hd : g.fracBits = f.fracBits + d) (negative : Bool)
    {e e' m : ℕ} (he : e ≠ 0) (htop : e ≠ 2 ^ f.expBits - 1) (he' : e' ≠ 0)
    (htop' : e' ≠ 2 ^ g.expBits - 1)
    (hbias : (e' : ℤ) - g.bias = e - f.bias) :
    g.value negative e' (m * 2 ^ d) = f.value negative e m := by
  unfold value
  rw [if_neg htop', if_neg he', if_neg htop, if_neg he, hd]
  congr 1
  have hexp : (e' : ℤ) - g.bias - ((f.fracBits + d : ℕ) : ℤ) =
      (e - f.bias - f.fracBits : ℤ) - d := by
    push_cast
    omega
  rw [hexp, zpow_sub₀ two_ne_zero, zpow_natCast, pow_add]
  push_cast
  field_simp

lemma value_widen_subnormal (f g : Format) {d : ℕ} (hd : g.fracBits = f.fracBits + d)
    (negative : Bool) {m k : ℕ} (e' : ℕ) (htop : 0 ≠ 2 ^ f.expBits - 1)
    (hlead : 2 ^ f.fracBits ≤ m * 2 ^ k)
    (he' : e' ≠ 0) (htop' : e' ≠ 2 ^ g.expBits - 1)
    (hbias : (e' : ℤ) - g.bias = 1 - f.bias - k) :
    g.value negative e' ((m * 2 ^ k - 2 ^ f.fracBits) * 2 ^ d) = f.value negative 0 m := by
  unfold value
  rw [if_neg htop', if_neg he', if_neg htop, if_pos rfl, hd]
  congr 1
  have hexp : (e' : ℤ) - g.bias - ((f.fracBits + d : ℕ) : ℤ) =
      (1 - f.bias - f.fracBits : ℤ) - (k + d : ℕ) := by
    push_cast
    omega
  rw [hexp, zpow_sub₀ two_ne_zero, zpow_natCast, pow_add, pow_add, Nat.cast_mul,
    Nat.cast_sub hlead]
  push_cast
  field_simp
  ring

lemma value_widen_zero (f g : Format) (negative : Bool) (htop : 0 ≠ 2 ^ f.expBits - 1)
    (htop' : 0 ≠ 2 ^ g.expBits - 1) : g.value negative 0 0 = f.value negative 0 0 := by
  simp [value, htop, htop']

lemma value_widen_special (f g : Format) {d : ℕ} (hd : g.fracBits = f.fracBits + d)
    (negative : Bool) (m : ℕ) :
    g.value negative (2 ^ g.expBits - 1) (m * 2 ^ d) =
      f.value negative (2 ^ f.expBits - 1) m := by
  unfold value
  rw [if_pos rfl, if_pos rfl]
  by_cases hm : m = 0
  · simp [hm]
  · have hpow : m * 2 ^ d ≠ 0 := Nat.mul_ne_zero hm (Nat.two_pow_pos d).ne'
    rw [if_neg hpow, if_neg hm, hd, pow_add]
    congr 1
    push_cast
    field_simp

end Format

end PocketMoE.Lib.Ieee
