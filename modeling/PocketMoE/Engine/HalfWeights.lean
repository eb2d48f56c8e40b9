import Mathlib.Data.Nat.Bitwise
import Mathlib.Data.List.Forall2
import PocketMoE.Lib.Ieee
import PocketMoE.Lib.Except

/-!
# F16 weights on the host

Model of `f16_bits_to_float`, `f16_to_bf16_host` and `f16_to_f32_host` (`dsv4_engine.cpp`), and of
`fp16_to_float` of the CPU extension (`deepseek_cpu_moe_ext.cpp`). A `float` made by copying bits is
its bits; the one `fp16_to_float` computes is its value, since `ldexp` is exact on it.
-/

namespace PocketMoE.Engine.HalfWeights

open PocketMoE.Lib PocketMoE.Lib.Ieee

/-- `while ((m & 0x400u) == 0) { m <<= 1; --e; }`, for at most `fuel` turns. -/
def normalise : ℕ → ℕ → ℤ → Option (ℕ × ℤ)
  | fuel, m, e =>
    if m &&& 0x400 = 0 then
      match fuel with
      | 0 => none
      | fuel + 1 => normalise fuel (m <<< 1 % 2 ^ 32) (e - 1)
    else some (m, e)

/-- `f16_bits_to_float`, as the bits it copies out. -/
def f16BitsToFloat (fuel : ℕ) (h : BitVec 16) : Option ℕ :=
  let sign := (h.toNat &&& 0x8000) <<< 16
  let exp16 := h.toNat >>> 10 &&& 0x1F
  let man16 := h.toNat &&& 0x3FF
  if exp16 = 0 then
    if man16 = 0 then some sign
    else
      (normalise fuel man16 (-1)).map fun (m, e) =>
        let m := m &&& 0x3FF
        let exp32 := ((127 - 15 + e) % 2 ^ 32).toNat
        sign ||| exp32 <<< 23 % 2 ^ 32 ||| m <<< 13
  else if exp16 = 0x1F then some (sign ||| 0xFF <<< 23 ||| man16 <<< 13)
  else
    let exp32 := exp16 + (127 - 15)
    some (sign ||| exp32 <<< 23 ||| man16 <<< 13)

def f16ToBf16Host (fuel : ℕ) (src : List (BitVec 16)) : Option (List ℕ) :=
  src.mapM fun h => (f16BitsToFloat fuel h).map fun bits => bits >>> 16

def f16ToF32Host (fuel : ℕ) (src : List (BitVec 16)) : Option (List ℕ) :=
  src.mapM (f16BitsToFloat fuel)

/-- `fp16_to_float`. -/
def fp16ToFloat (h : BitVec 16) : Value :=
  let negative := decide (h.toNat &&& 0x8000 ≠ 0)
  let exp := h.toNat >>> 10 &&& 0x1F
  let mant := h.toNat &&& 0x3FF
  if exp = 0 then
    if mant = 0 then .finite negative 0 else .finite negative (mant * (2 : ℚ) ^ (-24 : ℤ))
  else
    let sign := (h.toNat &&& 0x8000) <<< 16
    if exp = 31 then binary32.decode (sign ||| 0x7F800000 ||| mant <<< 13)
    else binary32.decode (sign ||| (exp + 127 - 15) <<< 23 ||| mant <<< 13)

section Fields

/-- The three fields of a half. -/
def signField (h : BitVec 16) : ℕ := h.toNat / 2 ^ 15
def expField (h : BitVec 16) : ℕ := h.toNat / 2 ^ 10 % 32
def fracField (h : BitVec 16) : ℕ := h.toNat % 2 ^ 10

/-- No exponent and some fraction. -/
def Subnormal (h : BitVec 16) : Prop := expField h = 0 ∧ fracField h ≠ 0

instance (h : BitVec 16) : Decidable (Subnormal h) := by
  unfold Subnormal
  infer_instance

/-- The value of a half. -/
def half (h : BitVec 16) : Value := binary16.decode h.toNat

variable (h : BitVec 16)

lemma signField_lt : signField h < 2 := by
  have := h.isLt
  unfold signField
  omega

lemma expField_lt : expField h < 32 := Nat.mod_lt _ (by decide)

lemma fracField_lt : fracField h < 1024 := Nat.mod_lt _ (by decide)

lemma half_eq :
    half h = binary16.value (decide (signField h = 1)) (expField h) (fracField h) := by
  have hsign : signField h % 2 = signField h := Nat.mod_eq_of_lt (signField_lt h)
  unfold half Format.decode
  rw [show h.toNat / 2 ^ (binary16.expBits + binary16.fracBits) = signField h from rfl, hsign]
  rfl

lemma sign_bit : h.toNat &&& 0x8000 = signField h * 2 ^ 15 := by
  have hbit := Nat.and_two_pow h.toNat 15
  rw [Nat.toNat_testBit] at hbit
  rw [show 0x8000 = 2 ^ 15 from rfl, hbit]
  congr 1
  exact Nat.mod_eq_of_lt (signField_lt h)

lemma exp_bits : h.toNat >>> 10 &&& 0x1F = expField h := by
  rw [show 0x1F = 2 ^ 5 - 1 from rfl, Nat.and_two_pow_sub_one_eq_mod, Nat.shiftRight_eq_div_pow]
  rfl

lemma frac_bits : h.toNat &&& 0x3FF = fracField h := by
  rw [show 0x3FF = 2 ^ 10 - 1 from rfl, Nat.and_two_pow_sub_one_eq_mod]
  rfl

end Fields

lemma or_pack {s e m : ℕ} (he : e < 2 ^ 8) (hm : m < 2 ^ 10) :
    (s * 2 ^ 15) <<< 16 ||| e <<< 23 ||| m <<< 13 = binary32.pack s e (m * 2 ^ 13) := by
  have hlow : m <<< 13 < 2 ^ 23 := by
    rw [Nat.shiftLeft_eq]
    omega
  have hmid : e <<< 23 < 2 ^ 31 := by
    rw [Nat.shiftLeft_eq]
    omega
  have hsign : (s * 2 ^ 15) <<< 16 = s <<< 31 := by
    simp only [Nat.shiftLeft_eq]
    ring
  have hhigh : s <<< 31 + e <<< 23 = (s * 2 ^ 8 + e) <<< 23 := by
    simp only [Nat.shiftLeft_eq]
    ring
  rw [hsign, ← Nat.shiftLeft_add_eq_or_of_lt hmid, hhigh, ← Nat.shiftLeft_add_eq_or_of_lt hlow]
  simp only [Nat.shiftLeft_eq]
  rfl

lemma normalise_eq {k m : ℕ} (e : ℤ) (extra : ℕ) (hlo : 1024 ≤ m * 2 ^ k)
    (hhi : m * 2 ^ k < 2048) : normalise (k + extra) m e = some (m * 2 ^ k, e - k) := by
  induction k generalizing m e with
  | zero =>
    have hbit := Nat.and_two_pow m 10
    rw [Nat.toNat_testBit] at hbit
    have hset : m &&& 0x400 ≠ 0 := by
      rw [show 0x400 = 2 ^ 10 from rfl, hbit]
      omega
    unfold normalise
    rw [if_neg hset]
    simp
  | succ k ih =>
    have hstep : m * 2 * 2 ^ k = m * 2 ^ (k + 1) := by ring
    have hpow : 1 ≤ 2 ^ k := Nat.one_le_two_pow
    have hsmall : m < 1024 := by
      by_contra hbig
      have hle : 1024 * 1 ≤ m * 2 ^ k := Nat.mul_le_mul (by omega) hpow
      have htwo : m * 2 * 2 ^ k = 2 * (m * 2 ^ k) := by ring
      omega
    have hbit := Nat.and_two_pow m 10
    rw [Nat.toNat_testBit] at hbit
    have hclear : m &&& 0x400 = 0 := by
      rw [show 0x400 = 2 ^ 10 from rfl, hbit]
      omega
    have hshift : m <<< 1 % 2 ^ 32 = m * 2 := by
      rw [Nat.shiftLeft_eq]
      omega
    rw [← hstep] at hlo hhi
    have hrest := ih (e - 1) hlo hhi
    rw [show k + 1 + extra = (k + extra) + 1 by omega]
    unfold normalise
    rw [if_pos hclear, hshift]
    simp only
    rw [hrest, hstep]
    congr 2
    push_cast
    ring

lemma exists_shift {m : ℕ} (hm : m ≠ 0) (hlt : m < 1024) :
    ∃ k, 1 ≤ k ∧ k ≤ 10 ∧ 1024 ≤ m * 2 ^ k ∧ m * 2 ^ k < 2048 := by
  have hlo := Nat.log2_self_le hm
  have hhi := Nat.lt_log2_self (n := m)
  have hlog : m.log2 < 10 := (Nat.log2_lt hm).mpr hlt
  refine ⟨10 - m.log2, by omega, by omega, ?_, ?_⟩
  · calc 1024 = 2 ^ m.log2 * 2 ^ (10 - m.log2) := by
          rw [← pow_add, show m.log2 + (10 - m.log2) = 10 by omega]
          rfl
      _ ≤ m * 2 ^ (10 - m.log2) := Nat.mul_le_mul_right _ hlo
  · calc m * 2 ^ (10 - m.log2) < 2 ^ (m.log2 + 1) * 2 ^ (10 - m.log2) :=
          Nat.mul_lt_mul_of_pos_right hhi (Nat.two_pow_pos _)
      _ = 2048 := by
          rw [← pow_add, show m.log2 + 1 + (10 - m.log2) = 11 by omega]
          rfl

section Elements

variable (h : BitVec 16)

/-- The CPU extension has the value of every half. -/
theorem fp16ToFloat_eq : fp16ToFloat h = half h := by
  have hs := signField_lt h
  have he := expField_lt h
  have hm := fracField_lt h
  have hneg : decide (h.toNat &&& 0x8000 ≠ 0) = decide (signField h = 1) := by
    rw [sign_bit]
    congr 1
    rw [eq_iff_iff]
    omega
  unfold fp16ToFloat
  rw [hneg, exp_bits, frac_bits, sign_bit, half_eq]
  by_cases hzero : expField h = 0
  · rw [if_pos hzero, hzero]
    by_cases hfrac : fracField h = 0
    · rw [if_pos hfrac, hfrac]
      simp [Format.value, binary16]
    · rw [if_neg hfrac]
      simp [Format.value, binary16, Format.bias]
  · rw [if_neg hzero]
    by_cases htop : expField h = 31
    · rw [if_pos htop, htop]
      have hpack := or_pack (s := signField h) (e := 255) (m := fracField h) (by decide) (by omega)
      rw [show (0x7F800000 : ℕ) = 255 <<< 23 from rfl, hpack,
        Format.decode_pack binary32 hs (by decide) (by change _ < 2 ^ 23; omega)]
      exact Format.value_widen_special binary16 binary32 (d := 13) rfl _ _
    · rw [if_neg htop]
      have hpack := or_pack (s := signField h) (e := expField h + 127 - 15) (m := fracField h)
        (by omega) (by omega)
      rw [hpack, Format.decode_pack binary32 hs (by change _ < 2 ^ 8; omega)
        (by change _ < 2 ^ 23; omega)]
      apply Format.value_widen_normal binary16 binary32 (d := 13) rfl _ hzero htop (by omega)
      · change _ ≠ 255
        omega
      · change ((expField h + 127 - 15 : ℕ) : ℤ) - 127 = expField h - 15
        omega

lemma f16BitsToFloat_normal (hn : ¬ Subnormal h) :
    ∃ bits, (∀ fuel, f16BitsToFloat fuel h = some bits) ∧ binary32.decode bits = half h := by
  have hs := signField_lt h
  have he := expField_lt h
  have hm := fracField_lt h
  unfold f16BitsToFloat
  rw [exp_bits, frac_bits, sign_bit, half_eq]
  by_cases hzero : expField h = 0
  · have hfrac : fracField h = 0 := by
      by_contra hne
      exact hn ⟨hzero, hne⟩
    refine ⟨_, fun fuel => by rw [if_pos hzero, if_pos hfrac], ?_⟩
    have hpack := or_pack (s := signField h) (e := 0) (m := 0) (by decide) (by decide)
    rw [show (signField h * 2 ^ 15) <<< 16 =
        (signField h * 2 ^ 15) <<< 16 ||| 0 <<< 23 ||| 0 <<< 13 by simp, hpack,
      Format.decode_pack binary32 hs (by decide) (by decide), hzero, hfrac]
    exact Format.value_widen_zero binary16 binary32 _ (by decide) (by decide)
  · by_cases htop : expField h = 0x1F
    · refine ⟨_, fun fuel => by rw [if_neg hzero, if_pos htop], ?_⟩
      rw [or_pack (by decide) (by omega),
        Format.decode_pack binary32 hs (by decide) (by change _ < 2 ^ 23; omega), htop]
      exact Format.value_widen_special binary16 binary32 (d := 13) rfl _ _
    · refine ⟨_, fun fuel => by rw [if_neg hzero, if_neg htop], ?_⟩
      rw [or_pack (by omega) (by omega), Format.decode_pack binary32 hs (by change _ < 2 ^ 8; omega)
        (by change _ < 2 ^ 23; omega)]
      apply Format.value_widen_normal binary16 binary32 (d := 13) rfl _ hzero htop (by omega)
      · change _ ≠ 255
        omega
      · change ((expField h + (127 - 15) : ℕ) : ℤ) - 127 = expField h - 15
        omega

/-- A subnormal half is converted to a quarter of its value: the loop's exponent starts two below
the one that goes with a fraction that needs no shift. -/
lemma f16BitsToFloat_subnormal (hn : Subnormal h) :
    ∃ bits negative magnitude, (∀ fuel, 10 ≤ fuel → f16BitsToFloat fuel h = some bits) ∧
      half h = .finite negative magnitude ∧ magnitude ≠ 0 ∧
      binary32.decode bits = .finite negative (magnitude / 4) := by
  obtain ⟨hzero, hfrac⟩ := hn
  have hs := signField_lt h
  have hm := fracField_lt h
  obtain ⟨k, hk1, hk, hlo, hhi⟩ := exists_shift hfrac hm
  have hrun : ∀ fuel, 10 ≤ fuel → f16BitsToFloat fuel h =
      some (binary32.pack (signField h) (111 - k) ((fracField h * 2 ^ k - 1024) * 2 ^ 13)) := by
    intro fuel hfuel
    have hloop := normalise_eq (-1) (fuel - k) hlo hhi
    rw [show k + (fuel - k) = fuel by omega] at hloop
    have hmask : fracField h * 2 ^ k &&& 0x3FF = fracField h * 2 ^ k - 1024 := by
      rw [show 0x3FF = 2 ^ 10 - 1 from rfl, Nat.and_two_pow_sub_one_eq_mod]
      omega
    have hexp : ((127 - 15 + (-1 - (k : ℤ))) % 2 ^ 32).toNat = 111 - k := by omega
    have hfits : (111 - k) <<< 23 % 2 ^ 32 = (111 - k) <<< 23 := by
      rw [Nat.shiftLeft_eq]
      omega
    unfold f16BitsToFloat
    rw [exp_bits, frac_bits, sign_bit, if_pos hzero, if_neg hfrac, hloop, Option.map_some]
    simp only [hmask, hexp, hfits]
    rw [or_pack (by omega) (by omega)]
  have htop : 113 - k ≠ 2 ^ binary32.expBits - 1 := by
    change 113 - k ≠ 255
    omega
  have htop' : 111 - k ≠ 2 ^ binary32.expBits - 1 := by
    change 111 - k ≠ 255
    omega
  have hne : 113 - k ≠ 0 := by omega
  have hne' : 111 - k ≠ 0 := by omega
  have hbias : ((113 - k : ℕ) : ℤ) - binary32.bias = 1 - binary16.bias - k := by
    change ((113 - k : ℕ) : ℤ) - 127 = 1 - 15 - k
    omega
  have hwide := Format.value_widen_subnormal binary16 binary32 (d := 13) rfl
    (decide (signField h = 1)) (113 - k) (by decide) hlo hne htop hbias
  refine ⟨_, decide (signField h = 1),
    (2 ^ 23 + ((fracField h * 2 ^ k - 1024) * 2 ^ 13 : ℕ)) * (2 : ℚ) ^ (-37 - k : ℤ),
    hrun, ?_, ?_, ?_⟩
  · rw [half_eq, hzero, ← hwide]
    unfold Format.value
    rw [if_neg htop, if_neg hne]
    congr 2
    change (2 : ℚ) ^ (((113 - k : ℕ) : ℤ) - 127 - 23) = _
    congr 1
    omega
  · apply mul_ne_zero _ (Format.two_zpow_ne _)
    generalize (fracField h * 2 ^ k - 1024) * 2 ^ 13 = m
    positivity
  · rw [Format.decode_pack binary32 hs (by change _ < 2 ^ 8; omega)
      (by change _ < 2 ^ 23; omega)]
    unfold Format.value
    rw [if_neg htop', if_neg hne']
    congr 1
    have hexp : (((111 - k : ℕ) : ℤ) - 127 - 23) = (-37 - k) - 2 := by omega
    change _ * (2 : ℚ) ^ (((111 - k : ℕ) : ℤ) - 127 - 23) = _
    rw [hexp, zpow_sub₀ two_ne_zero]
    change (2 ^ 23 + _) * _ = _
    ring

end Elements

section Arrays

lemma mapM_some {α β : Type} {f : α → Option β} {g : α → β} {l : List α}
    (h : ∀ a ∈ l, f a = some (g a)) : l.mapM f = some (l.map g) := by
  induction l with
  | nil => rfl
  | cons a l ih =>
    rw [List.mapM_cons, h a (List.mem_cons_self ..), ih fun b hb => h b (List.mem_cons_of_mem a hb)]
    rfl

/-- The bits an element is converted to. -/
def bitsOf (h : BitVec 16) : ℕ := (f16BitsToFloat 10 h).getD 0

lemma f16BitsToFloat_ends (h : BitVec 16) {fuel : ℕ} (hfuel : 10 ≤ fuel) :
    f16BitsToFloat fuel h = some (bitsOf h) := by
  by_cases hn : Subnormal h
  · obtain ⟨bits, _, _, hrun, -⟩ := f16BitsToFloat_subnormal h hn
    simp [bitsOf, hrun fuel hfuel, hrun 10 le_rfl]
  · obtain ⟨bits, hrun, -⟩ := f16BitsToFloat_normal h hn
    simp [bitsOf, hrun]

lemma decode_bitsOf (h : BitVec 16) : binary32.decode (bitsOf h) = half h ↔ ¬ Subnormal h := by
  constructor
  · intro heq hn
    obtain ⟨bits, negative, magnitude, hrun, hhalf, hne, hbits⟩ := f16BitsToFloat_subnormal h hn
    have hbitsOf : bitsOf h = bits := by simp [bitsOf, hrun 10 le_rfl]
    rw [hbitsOf, hbits, hhalf] at heq
    injection heq with _ hquarter
    apply hne
    linarith
  · intro hn
    obtain ⟨bits, hrun, hbits⟩ := f16BitsToFloat_normal h hn
    simpa [bitsOf, hrun] using hbits

lemma f16ToF32Host_ends (src : List (BitVec 16)) {fuel : ℕ} (hfuel : 10 ≤ fuel) :
    f16ToF32Host fuel src = some (src.map bitsOf) :=
  mapM_some fun h _ => f16BitsToFloat_ends h hfuel

lemma f16ToBf16Host_ends (src : List (BitVec 16)) {fuel : ℕ} (hfuel : 10 ≤ fuel) :
    f16ToBf16Host fuel src = some (src.map fun h => bitsOf h >>> 16) := by
  apply mapM_some
  intro h _
  rw [f16BitsToFloat_ends h hfuel]
  rfl

/-- An array is converted right: both functions end, `f16_to_f32_host` has the value of every
element, which is what the CPU extension has, and `f16_to_bf16_host` its upper half. -/
def Converts (src : List (BitVec 16)) : Prop :=
  ∃ f32 bf16 : List ℕ,
    (∀ fuel, 10 ≤ fuel → f16ToF32Host fuel src = some f32 ∧ f16ToBf16Host fuel src = some bf16) ∧
    f32.map binary32.decode = src.map half ∧
    f32.map binary32.decode = src.map fp16ToFloat ∧
    bf16 = f32.map fun bits => bits >>> 16

/-- An array is converted right just when none of its elements is subnormal. -/
theorem converts_iff (src : List (BitVec 16)) : Converts src ↔ ∀ h ∈ src, ¬ Subnormal h := by
  have hvalues :
      (src.map bitsOf).map binary32.decode = src.map half ↔ ∀ h ∈ src, ¬ Subnormal h := by
    rw [List.map_map, List.map_inj_left]
    exact forall₂_congr fun h _ => decode_bitsOf h
  have hsame : src.map fp16ToFloat = src.map half := List.map_congr_left fun h _ => fp16ToFloat_eq h
  rw [← hvalues]
  constructor
  · rintro ⟨f32, bf16, hrun, hhalf, -, -⟩
    have hf32 := (hrun 10 le_rfl).1
    rw [f16ToF32Host_ends src le_rfl] at hf32
    rw [Option.some.inj hf32]
    exact hhalf
  · intro hhalf
    refine ⟨src.map bitsOf, src.map fun h => bitsOf h >>> 16, fun fuel hfuel => ?_, hhalf, ?_, ?_⟩
    · exact ⟨f16ToF32Host_ends src hfuel, f16ToBf16Host_ends src hfuel⟩
    · rw [hhalf, hsame]
    · rw [List.map_map]
      rfl

/-- 2⁻¹⁵ becomes 2⁻¹⁷. -/
theorem not_converts : ¬ ∀ src, Converts src := by
  intro h
  obtain ⟨f32, bf16, hrun, hhalf, -⟩ := h [0x0200]
  have hf32 := (hrun 10 le_rfl).1
  rw [show f16ToF32Host 10 [0x0200] = some [0x37000000] from rfl] at hf32
  rw [← Option.some.inj hf32] at hhalf
  have hvalue := (List.cons.inj hhalf).1
  have hbits : (0x0200 : BitVec 16).toNat = 512 := rfl
  simp only [half, hbits, Format.decode, Format.value, binary16, binary32, Format.bias] at hvalue
  norm_num at hvalue

end Arrays

end PocketMoE.Engine.HalfWeights
