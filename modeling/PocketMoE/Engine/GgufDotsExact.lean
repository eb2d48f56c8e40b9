import Mathlib.Algebra.BigOperators.Ring.Finset
import PocketMoE.Engine.GgufDots

/-!
# The products with rows of GGUF experts are exact

Each way of the kernels to multiply a row of numbers with a row of blocks adds up the products with
the weights that the reader decodes from the blocks, once each.
-/

namespace PocketMoE.Engine.GgufMoe

open PocketMoE.Lib PocketMoE.Loader.Python

variable {K : Type} [Field K]

/-- A quantised number. -/
def Q8.value (size : ℕ) (q : Q8 K) (k : ℕ) : K := q.scales (k / size) * ((q.codes k).toInt : ℤ)

/-- The rows that the reader decodes. -/
def iq1Row (books : Codebooks K) (blocks : ℕ → Byte) (width : ℕ) : ℕ → ℕ → K :=
  rowsOf 56 books.iq1MWeight blocks (width / 256)

def iq2Row (books : Codebooks K) (blocks : ℕ → Byte) (width : ℕ) : ℕ → ℕ → K :=
  rowsOf 66 books.iq2XxsWeight blocks (width / 256)

def q2kRow (books : Codebooks K) (blocks : ℕ → Byte) (width : ℕ) : ℕ → ℕ → K :=
  rowsOf 84 books.q2KWeight blocks (width / 256)

/-! ## Blocks -/

section Blocks

variable {width : ℕ}

lemma cdiv_of_dvd {size : ℕ} (pos : 0 < size) (dvd : size ∣ width) :
    cdiv width size = width / size := by
  obtain ⟨n, rfl⟩ := dvd
  unfold cdiv
  rw [Nat.add_sub_assoc pos, Nat.mul_add_div pos, Nat.mul_div_cancel_left n pos,
    Nat.div_eq_of_lt (by omega), Nat.add_zero]

omit [Field K] in
lemma rowsOf_block (bytes : ℕ) (weight : (ℕ → Byte) → ℕ → K) (data : ℕ → Byte)
    (blocksPerRow row b : ℕ) {k : ℕ} (lt : k < 256) :
    rowsOf bytes weight data blocksPerRow row (b * 256 + k) =
      weight (bytesFrom data (row * blocksPerRow * bytes + b * bytes)) k := by
  rw [rowsOf, mul_add_div_of_lt lt, Nat.mul_add_mod_of_lt lt, Nat.add_mul]

lemma sum_blocks (dvd : 256 ∣ width) {step : ℕ → K → K} {f : ℕ → K}
    (each : ∀ b < width / 256, ∀ acc, step b acc = acc + ∑ k ∈ Finset.range 256, f (b * 256 + k)) :
    loop (List.range (width / 256)) step 0 = ∑ k ∈ Finset.range width, f k := by
  have whole : width / 256 * 256 = width := Nat.div_mul_cancel dvd
  calc _ = 0 + ∑ b ∈ Finset.range (width / 256), ∑ k ∈ Finset.range 256, f (b * 256 + k) :=
        loop_range_sum id _ step each 0
    _ = ∑ k ∈ Finset.range (width / 256 * 256), f k := by rw [zero_add, sum_parts]
    _ = _ := by rw [whole]

end Blocks

/-! ## IQ1_M -/

section Iq1

variable {books : Codebooks K}

lemma iq1Lane_place : ∀ j < 32, j >>> 2 * 2 + (j >>> 1 &&& 1) = j / 2 ∧
    j >>> 2 * 32 + (j >>> 1 &&& 1) * 16 + (j &&& 1) * 8 = j * 8 ∧ j >>> 1 = j / 2 ∧
    (j &&& 1) * 4 = 4 * (j % 2) := by
  decide

lemma group_place : ∀ s < 16, s >>> 2 = s / 4 ∧ (s &&& 3) * 3 = 3 * (s % 4) := by decide

lemma nibble_low (n : ℕ) : n &&& 0x0F &&& 0x07 = n &&& 0x07 := Nat.and_assoc n 15 7

lemma nibble_high (n : ℕ) : n &&& 0x0F &&& 0x08 = n &&& 0x08 := Nat.and_assoc n 15 8

lemma iq1Lane_reads (books : Codebooks K) (block : ℕ → Byte) {j : ℕ} (lane : j < 32) :
    (iq1Lane books block j).s = j / 2 ∧ (iq1Lane books block j).kOut = j * 8 := by
  obtain ⟨s, kOut, -⟩ := iq1Lane_place j lane
  exact ⟨s, kOut⟩

lemma iq1Lane_weight (block : ℕ → Byte) {j g : ℕ} (lane : j < 32) (lt : g < 8) :
    (iq1Lane books block j).dl *
      (((books.iq1Grid ((iq1Lane books block j).qidx * 8 + g)).toInt : ℤ) +
        (iq1Lane books block j).delta) = books.iq1MWeight block (j * 8 + g) := by
  obtain ⟨s, kOut, byte, shift⟩ := iq1Lane_place j lane
  obtain ⟨word, bits⟩ := group_place (j / 2) (by omega)
  have eighth : (j * 8 + g) / 8 = j := mul_add_div_of_lt lt
  have rest : (j * 8 + g) % 8 = g := Nat.mul_add_mod_of_lt lt
  have sixteenth : (j * 8 + g) / 16 = j / 2 := by omega
  rw [iq1MWeight_eq block (by omega)]
  dsimp only [iq1Lane, iq1mSuperScale, bytesFrom]
  rw [s, word, bits]
  simp only [eighth, rest, sixteenth, byte, shift, nibble_low, nibble_high, Nat.zero_add]
  rfl

lemma iq1mBlockDot256_eq (x : ℕ → K) (block : ℕ → Byte) : iq1mBlockDot256 books x block =
    ∑ k ∈ Finset.range 256, x k * books.iq1MWeight block k := by
  refine (warpDown_sum 5 (by decide) _).trans ?_
  rw [← sum_parts _ 32 8]
  refine Finset.sum_congr rfl fun j lane => ?_
  have lane := Finset.mem_range.mp lane
  dsimp only
  rw [loop_counter, (iq1Lane_reads books block lane).2, Finset.mul_sum]
  refine Finset.sum_congr rfl fun g member => ?_
  rw [← iq1Lane_weight block lane (Finset.mem_range.mp member)]
  ring

lemma dp4a_eight (a b : ℕ → BitVec 8) :
    dp4a (pack4 fun j => a (4 * 0 + j)) (pack4 fun j => b (4 * 0 + j)) 0 +
      dp4a (pack4 fun j => a (4 * 1 + j)) (pack4 fun j => b (4 * 1 + j)) 0 =
        ∑ g ∈ Finset.range 8, (a g).toInt * (b g).toInt := by
  rw [dp4a_pack4, dp4a_pack4]
  simp [Finset.sum_range_succ]
  ring

lemma dp4a_ones (b : ℕ → BitVec 8) : dp4a (pack4 b) 0x01010101#32 0 =
    ∑ j ∈ Finset.range 4, (b j).toInt := by
  have ones : ∀ j < 4, (lane 0x01010101#32 j).toInt = 1 := by decide
  unfold dp4a
  rw [zero_add]
  refine Finset.sum_congr rfl fun j member => ?_
  have lt := Finset.mem_range.mp member
  rw [lane_pack4 b lt, ones j lt, mul_one]

lemma dp4a_ones_eight (a : ℕ → BitVec 8) :
    dp4a (pack4 fun j => a (4 * 0 + j)) 0x01010101#32 0 +
      dp4a (pack4 fun j => a (4 * 1 + j)) 0x01010101#32 0 = ∑ g ∈ Finset.range 8, (a g).toInt := by
  rw [dp4a_ones, dp4a_ones]
  simp [Finset.sum_range_succ]
  ring

lemma iq1mBlockDotQ8_eq (xq : ℕ → BitVec 8) (xs : ℕ → K) (block : ℕ → Byte) :
    iq1mBlockDotQ8 books xq xs block =
      ∑ k ∈ Finset.range 256, xs (k / 16) * ((xq k).toInt : ℤ) * books.iq1MWeight block k := by
  refine (warpDown_sum 5 (by decide) _).trans ?_
  rw [← sum_parts _ 32 8]
  refine Finset.sum_congr rfl fun j lane => ?_
  have lane := Finset.mem_range.mp lane
  obtain ⟨s, kOut⟩ := iq1Lane_reads books block lane
  dsimp only
  rw [s, kOut, dp4a_eight (fun g => xq (j * 8 + g))
      fun g => books.iq1Grid ((iq1Lane books block j).qidx * 8 + g),
    dp4a_ones_eight fun g => xq (j * 8 + g)]
  push_cast
  rw [Finset.mul_sum, ← Finset.sum_add_distrib, Finset.mul_sum]
  refine Finset.sum_congr rfl fun g member => ?_
  have lt := Finset.mem_range.mp member
  have sixteenth : (j * 8 + g) / 16 = j / 2 := by omega
  rw [← iq1Lane_weight block lane lt, sixteenth]
  ring

variable {blocks : ℕ → Byte} {width : ℕ}

lemma iq1RowDot_eq (dvd : 256 ∣ width) (x : ℕ → K) (row : ℕ) :
    iq1RowDot books x blocks width row =
      ∑ k ∈ Finset.range width, x k * iq1Row books blocks width row k := by
  unfold iq1RowDot
  dsimp only
  rw [cdiv_of_dvd (by decide) dvd]
  refine sum_blocks dvd fun b lt acc => congrArg (acc + ·) ?_
  rw [iq1mBlockDot256_eq]
  refine Finset.sum_congr rfl fun k member => ?_
  have below := Finset.mem_range.mp member
  have inside : b * 256 + k < width := by omega
  rw [if_pos inside, iq1Row, rowsOf_block _ _ _ _ _ _ below]

lemma iq1RowDotQ8_eq (dvd : 256 ∣ width) (x : Q8 K) (row : ℕ) :
    iq1RowDotQ8 books x blocks width row =
      ∑ k ∈ Finset.range width, x.value 16 k * iq1Row books blocks width row k := by
  unfold iq1RowDotQ8
  dsimp only
  rw [cdiv_of_dvd (by decide) dvd, cdiv_of_dvd (by decide) (dvd_trans (by decide : 16 ∣ 256) dvd)]
  refine sum_blocks dvd fun b lt acc => congrArg (acc + ·) ?_
  rw [iq1mBlockDotQ8_eq]
  refine Finset.sum_congr rfl fun k member => ?_
  have below := Finset.mem_range.mp member
  have inside : b * 256 + k < width := by omega
  have group : b * 16 + k / 16 < width / 16 := by omega
  have place : (b * 256 + k) / 16 = b * 16 + k / 16 := by omega
  rw [if_pos inside, if_pos group, iq1Row, rowsOf_block _ _ _ _ _ _ below, Q8.value, place]

end Iq1

/-! ## IQ2_XXS -/

section Iq2

variable {books : Codebooks K}

lemma signMask_bit : ∀ idx < 128, ∀ b < 8,
    ((idx ||| (bitCount idx &&& 1) <<< 7) >>> b &&& 1 ≠ 0) ↔ signedGridNegative idx b = true := by
  decide +kernel

omit [Field K] in
lemma buildSignedGridHost_eq (books : Codebooks K) (grid : ℕ) {idx b : ℕ} (small : idx < 128)
    (lane : b < 8) : (buildSignedGridHost books ((grid * 128 + idx) * 8 + b)).toInt =
      books.signedByte grid b (signedGridNegative idx b) := by
  have row : ((grid * 128 + idx) * 8 + b) / 8 = grid * 128 + idx := mul_add_div_of_lt lane
  have rest : ((grid * 128 + idx) * 8 + b) % 8 = b := Nat.mul_add_mod_of_lt lane
  have byte (n : ℕ) : BitVec.ofNat 8 (n &&& 0xff) = BitVec.ofNat 8 n := by
    apply BitVec.eq_of_toNat_eq
    rw [BitVec.toNat_ofNat, BitVec.toNat_ofNat, Nat.and_two_pow_sub_one_eq_mod n 8, Nat.mod_mod]
  dsimp only [buildSignedGridHost, Codebooks.signedByte]
  rw [row, rest, mul_add_div_of_lt small, Nat.mul_add_mod_of_lt small, byte]
  exact congrArg _ (congrArg _ (congrArg _ (if_congr (signMask_bit idx small b lane) rfl rfl)))

lemma iq2Lane_place : ∀ j < 32, j >>> 2 = j / 4 ∧ (j &&& 3) = j % 4 := by decide

lemma dp4a_chain (a b : ℕ → BitVec 8) (start : ℕ) :
    dp4a (pack4 fun j => a (4 * 1 + j)) (pack4 fun j => b (4 * (start + 1) + j))
      (dp4a (pack4 fun j => a (4 * 0 + j)) (pack4 fun j => b (4 * (start + 0) + j)) 0) =
        ∑ g ∈ Finset.range 8, (a g).toInt * (b (4 * start + g)).toInt := by
  rw [dp4a_pack4, dp4a_pack4]
  simp [Finset.sum_range_succ, Nat.mul_add, Nat.add_assoc]
  ring

lemma iq2Lane_eq (xq : ℕ → BitVec 8) (xs : ℕ → K) (block : ℕ → Byte) {j : ℕ} (lane : j < 32) :
    iq2Lane books xq xs block j = ∑ g ∈ Finset.range 8,
      xs ((j * 8 + g) / 32) * ((xq (j * 8 + g)).toInt : ℤ) *
        books.iq2XxsWeight block (j * 8 + g) := by
  obtain ⟨sub, part⟩ := iq2Lane_place j lane
  have words : 4 * (j / 4 * 8 + j % 4 * 2) = j * 8 := by omega
  have small (n : ℕ) : n &&& 127 < 128 := Nat.and_lt_two_pow (n := 7) n (by decide)
  unfold iq2Lane
  dsimp only
  rw [sub, part]
  generalize index : (block (2 + (j / 4 * 8 + 4))).val ||| _ ||| _ ||| _ = aux
  rw [dp4a_chain (fun g => buildSignedGridHost books (((block (2 + (j / 4 * 8 + j % 4))).val * 128 +
    (aux >>> (7 * (j % 4)) &&& 127)) * 8 + g)) xq, words]
  push_cast
  rw [Finset.mul_sum]
  refine Finset.sum_congr rfl fun g member => ?_
  have lt := Finset.mem_range.mp member
  have place : (j * 8 + g) / 32 = j / 4 := by omega
  have eighth : (j * 8 + g) / 8 = j := mul_add_div_of_lt lt
  rw [iq2XxsWeight_eq block (by omega)]
  dsimp only
  rw [place, eighth, Nat.mul_add_mod_of_lt lt, index,
    buildSignedGridHost_eq books _ (small _) lt]
  push_cast
  ring

variable {blocks : ℕ → Byte} {width : ℕ}

lemma iq2RowDot_eq (dvd : 256 ∣ width) (x : Q8 K) (row : ℕ) :
    iq2RowDot books x blocks width row =
      ∑ k ∈ Finset.range width, x.value 32 k * iq2Row books blocks width row k := by
  unfold iq2RowDot
  dsimp only
  rw [cdiv_of_dvd (by decide) (dvd_trans (by decide : 32 ∣ 256) dvd)]
  refine sum_blocks dvd fun b lt acc => congrArg (acc + ·) ?_
  refine (warpDown_sum 5 (by decide) _).trans ?_
  rw [← sum_parts _ 32 8]
  refine Finset.sum_congr rfl fun j member => ?_
  have lane := Finset.mem_range.mp member
  rw [iq2Lane_eq _ _ _ lane]
  refine Finset.sum_congr rfl fun g member => ?_
  have eight := Finset.mem_range.mp member
  have inside : b * 256 + (j * 8 + g) / 4 * 4 + 4 ≤ width := by omega
  have group : b * 8 + (j * 8 + g) / 32 < width / 32 := by omega
  have place : (b * 256 + (j * 8 + g)) / 32 = b * 8 + (j * 8 + g) / 32 := by omega
  rw [if_pos inside, if_pos group, iq2Row, rowsOf_block _ _ _ _ _ _ (by omega), Q8.value, place]

end Iq2

/-! ## Q2_K -/

section Q2k

variable {books : Codebooks K}

lemma dp4a_comm (a b : BitVec 32) (acc : ℤ) : dp4a a b acc = dp4a b a acc := by
  unfold dp4a
  simp only [mul_comm]

lemma quant_toInt (n : ℕ) : (BitVec.ofNat 8 (n &&& 0x03)).toInt = (n &&& 0x03 : ℕ) := by
  have small : n &&& 0x03 < 4 := Nat.and_lt_two_pow (n := 2) n (by decide)
  generalize n &&& 0x03 = q at small ⊢
  interval_cases q <;> rfl

lemma q2kPart_sum (x : Q8 K) (block : ℕ → Byte) (blockIdx : ℕ) {group shift byteStart : ℕ}
    (lt : group < 16) (shifted : shift = group % 8 / 2 * 2)
    (start : byteStart = group / 8 * 32 + group % 2 * 16) :
    ∑ part ∈ Finset.range 4, q2kPart books x block blockIdx group shift byteStart part =
      ∑ k ∈ Finset.range 16, x.value 16 (blockIdx * 256 + (group * 16 + k)) *
        books.q2KWeight block (group * 16 + k) := by
  rw [← sum_parts _ 4 4]
  refine Finset.sum_congr rfl fun part member => ?_
  have four := Finset.mem_range.mp member
  unfold q2kPart
  dsimp only
  rw [dp4a_pack4, dp4a_comm, dp4a_ones, zero_add]
  push_cast
  rw [Finset.mul_sum, Finset.mul_sum, ← Finset.sum_sub_distrib, Finset.mul_sum]
  refine Finset.sum_congr rfl fun j member => ?_
  have small := Finset.mem_range.mp member
  have inside : part * 4 + j < 16 := by omega
  have sixteenth : (group * 16 + (part * 4 + j)) / 16 = group := mul_add_div_of_lt inside
  have rest : (group * 16 + (part * 4 + j)) % 16 = part * 4 + j := Nat.mul_add_mod_of_lt inside
  have half : (group * 16 + (part * 4 + j)) / 128 = group / 8 := by omega
  have place : (blockIdx * 256 + (group * 16 + (part * 4 + j))) / 16 = blockIdx * 16 + group := by
    omega
  have byte : 16 + (byteStart + part * 4 + j) =
      16 + (group / 8 * 32 + group % 2 * 16 + (part * 4 + j)) := by omega
  have code : blockIdx * 256 + group * 16 + part * 4 + j =
      blockIdx * 256 + (group * 16 + (part * 4 + j)) := by omega
  rw [q2KWeight_eq block (by omega), Q8.value, quant_toInt]
  dsimp only [bytesFrom]
  rw [sixteenth, rest, half, place, byte, code, shifted, Nat.zero_add]
  push_cast
  ring

lemma warpDown_four (v : ℕ → K) (sub : ℕ) :
    warpDown (· + ·) 4 2 v (4 * sub) = ∑ part ∈ Finset.range 4, v (4 * sub + part) := by
  have first : 4 * sub % 4 = 0 := Nat.mul_mod_right 4 sub
  have second : (4 * sub + 1) % 4 = 1 := by omega
  rw [warpDown, if_neg (by decide), warpDown, if_neg (by decide), warpDown, if_pos (by decide)]
  simp [shflDown, first, second, Finset.sum_range_succ]
  ring

lemma sum_firsts (f : ℕ → K) :
    ∑ lane ∈ Finset.range 32, (if lane &&& 3 = 0 then f lane else 0) =
      ∑ sub ∈ Finset.range 8, f (4 * sub) := by
  rw [← sum_parts _ 8 4]
  refine Finset.sum_congr rfl fun sub member => ?_
  have eight := Finset.mem_range.mp member
  have part (p : ℕ) (four : p < 4) : (sub * 4 + p &&& 3) = p := by
    rw [Nat.and_two_pow_sub_one_eq_mod _ 2]
    exact Nat.mul_add_mod_of_lt four
  rw [Finset.sum_range_succ', Finset.sum_eq_zero]
  · rw [zero_add, part 0 (by decide), if_pos rfl, Nat.add_zero, Nat.mul_comm]
  · intro p member
    have three := Finset.mem_range.mp member
    rw [part (p + 1) (by omega), if_neg (Nat.succ_ne_zero p)]

lemma q2kLane_place : ∀ half < 2, ∀ sub < 8, half * 8 + sub < 16 ∧
    sub >>> 1 * 2 = (half * 8 + sub) % 8 / 2 * 2 ∧
    half * 32 + (sub &&& 1) * 16 = (half * 8 + sub) / 8 * 32 + (half * 8 + sub) % 2 * 16 := by
  decide

lemma q2kTile_place : ∀ group < 16, (group &&& 7) >>> 1 * 2 = group % 8 / 2 * 2 ∧
    group >>> 3 * 32 + (group &&& 7 &&& 1) * 16 = group / 8 * 32 + group % 2 * 16 := by
  decide

variable {blocks : ℕ → Byte} {width : ℕ}

lemma sum_groups (x : Q8 K) (row b : ℕ) :
    ∑ group ∈ Finset.range 16, ∑ k ∈ Finset.range 16,
      x.value 16 (b * 256 + (group * 16 + k)) * books.q2KWeight
        (bytesFrom blocks (row * (width / 256) * 84 + b * 84)) (group * 16 + k) =
      ∑ k ∈ Finset.range 256,
        x.value 16 (b * 256 + k) * q2kRow books blocks width row (b * 256 + k) := by
  refine (sum_parts (fun k => x.value 16 (b * 256 + k) * books.q2KWeight
    (bytesFrom blocks (row * (width / 256) * 84 + b * 84)) k) 16 16).trans ?_
  refine Finset.sum_congr rfl fun k member => ?_
  rw [q2kRow, rowsOf_block _ _ _ _ _ _ (Finset.mem_range.mp member)]

lemma q2kRowDot_eq (dvd : 256 ∣ width) (x : Q8 K) (row : ℕ) :
    q2kRowDot books x blocks width row =
      ∑ k ∈ Finset.range width, x.value 16 k * q2kRow books blocks width row k := by
  unfold q2kRowDot
  dsimp only
  refine sum_blocks dvd fun b lt acc => ?_
  rw [loop_adds, ← sum_groups]
  refine congrArg (acc + ·) ((Finset.sum_congr rfl fun half member => ?_).trans
    (sum_parts _ 2 8))
  have two := Finset.mem_range.mp member
  refine (warpDown_sum 5 (by decide) _).trans ((sum_firsts _).trans ?_)
  refine Finset.sum_congr rfl fun sub member => ?_
  have eight := Finset.mem_range.mp member
  obtain ⟨group, shifted, start⟩ := q2kLane_place half two sub eight
  rw [warpDown_four, ← q2kPart_sum x _ b group shifted start]
  refine Finset.sum_congr rfl fun part member => ?_
  have four := Finset.mem_range.mp member
  obtain ⟨place, rest⟩ := iq2Lane_place (4 * sub + part) (by omega)
  have whole : (4 * sub + part) / 4 = sub := by omega
  have last : (4 * sub + part) % 4 = part := by omega
  unfold q2kLane
  rw [place, rest, whole, last]

lemma q2kRowDotTile_eq (dvd : 256 ∣ width) (x : Q8 K) (row sub : ℕ) (fits : sub < 8) :
    q2kRowDotTile books x blocks width row sub =
      ∑ k ∈ Finset.range width, x.value 16 k * q2kRow books blocks width row k := by
  unfold q2kRowDotTile
  dsimp only
  refine sum_blocks dvd fun b lt acc => ?_
  rw [loop_adds, ← sum_groups]
  refine congrArg (acc + ·) (Finset.sum_congr rfl fun group member => ?_)
  have lt := Finset.mem_range.mp member
  obtain ⟨shifted, start⟩ := q2kTile_place group lt
  rw [warpDown_four, ← q2kPart_sum x _ b lt shifted start]
  refine Finset.sum_congr rfl fun part member => ?_
  have four := Finset.mem_range.mp member
  have rest := (iq2Lane_place (4 * sub + part) (by omega)).2
  have last : (4 * sub + part) % 4 = part := by omega
  rw [rest, last]

end Q2k

/-! ## Tiles of IQ1_M -/

section Tiles

variable {books : Codebooks K}

lemma group_halves : ∀ s < 16, ∀ k < 16,
    (s >>> 1) * 4 + (s &&& 1) * 2 + (k >>> 3) = (s * 16 + k) / 8 ∧ (k &&& 7) = (s * 16 + k) % 8 ∧
      (if k < 8 then (s >>> 1) * 4 + (s &&& 1) * 2 else (s >>> 1) * 4 + (s &&& 1) * 2 + 1) =
        (s * 16 + k) / 8 := by
  decide +kernel

lemma byte_place (j : ℕ) : j >>> 1 = j / 2 ∧ (j &&& 1) * 4 = 4 * (j % 2) := by
  rw [Nat.shiftRight_one, Nat.and_one_is_mod]
  exact ⟨rfl, Nat.mul_comm _ 4⟩

lemma iq1mGroup_weight (block : ℕ → Byte) {s k : ℕ} (group : s < 16) (lt : k < 16) :
    (iq1mGroupMeta books block s).1 * (((iq1mGroupValue books block s k).toInt : ℤ) +
      (if k < 8 then (iq1mGroupMeta books block s).2.1 else (iq1mGroupMeta books block s).2.2)) =
        books.iq1MWeight block (s * 16 + k) := by
  obtain ⟨word, bits⟩ := group_place s group
  obtain ⟨eighth, rest, half⟩ := group_halves s group k lt
  have sixteenth : (s * 16 + k) / 16 = s := mul_add_div_of_lt lt
  have delta : (if k < 8 then (iq1mGroupMeta books block s).2.1 else
      (iq1mGroupMeta books block s).2.2) = if (block (32 + (s * 16 + k) / 8 / 2)).val >>>
        (4 * ((s * 16 + k) / 8 % 2)) &&& 0x08 ≠ 0 then -1 / 8 else 1 / 8 := by
    have place := byte_place ((s * 16 + k) / 8)
    dsimp only [iq1mGroupMeta, bytesFrom]
    rw [← place.1, ← place.2, ← half]
    split
    · exact if_congr (iff_of_eq (congrArg (· ≠ 0) (nibble_high _))) rfl rfl
    · exact if_congr (iff_of_eq (congrArg (· ≠ 0) (nibble_high _))) rfl rfl
  rw [iq1MWeight_eq block (by omega), delta]
  dsimp only [iq1mGroupMeta, iq1mGroupValue, iq1mSuperScale, bytesFrom]
  rw [eighth, rest, word, bits, sixteenth, (byte_place _).1, (byte_place _).2, nibble_low,
    Nat.zero_add]
  rfl

variable {data : ℕ → Byte} {width cols : ℕ} (b : Block)

omit [Field K] in
lemma aTile_eq (x : ℕ → Q8 K) {i kg k : ℕ} (there : b.there (b.row i)) (lt : k < 16)
    (inside : kg * 16 + k < width) : aTile b x width (kg * 16) (i / 16 * 16 + k) =
      ((x (b.place (b.row i))).codes (kg * 16 + k)).toInt := by
  have row : b.row (i / 16 * 16 + k) = b.row i := by
    unfold Block.row
    rw [mul_add_div_of_lt lt]
  unfold aTile
  dsimp only
  rw [Nat.mul_add_mod_of_lt lt, row, if_pos ⟨there, inside⟩]

omit [Field K] in
lemma tileBlock_eq (data : ℕ → Byte) (dvd : 256 ∣ width) {i kg : ℕ} (inside : b.col i < cols)
    (lt : kg < width / 16) : tileBlock b data cols width (b.col i) kg = some (bytesFrom data
      (((b.expert * cols + b.col i) * (width / 256) + kg / 16) * 56)) := by
  have below : kg / 16 < width / 256 := by omega
  unfold tileBlock
  dsimp only
  rw [cdiv_of_dvd (by decide) dvd, Nat.shiftRight_eq_div_pow]
  exact if_pos ⟨inside, below⟩

omit [Field K] in
lemma bTile_eq (dvd : 256 ∣ width) {i kg k : ℕ} (inside : b.col i < cols) (lt : kg < width / 16)
    (sixteenth : k < 16) : bTile b books data cols width kg (k + i % 16 * 16) =
      (iq1mGroupValue books (bytesFrom data
        (((b.expert * cols + b.col i) * (width / 256) + kg / 16) * 56)) (kg % 16) k).toInt := by
  have lane : (k + i % 16 * 16) % 16 = k := by omega
  have column : (k + i % 16 * 16) / 16 = i % 16 := by omega
  have below : kg * 16 + k < width := by omega
  have low : kg &&& 15 = kg % 16 := Nat.and_two_pow_sub_one_eq_mod kg 4
  have block := tileBlock_eq b data dvd inside lt
  unfold Block.col at block
  unfold bTile
  dsimp only
  rw [lane, column, block, ← low]
  exact if_pos below

lemma half_sums (a : ℕ → ℤ) (start : ℕ) :
    loop (List.range 8) (fun k s => s + a (start + k)) 0 = ∑ k ∈ Finset.range 8, a (start + k) ∧
      loop (List.range' 8 8) (fun k s => s + a (start + k)) 0 =
        ∑ k ∈ Finset.range 8, a (start + (8 + k)) := by
  constructor
  · exact loop_counter 8 fun k => a (start + k)
  · rw [loop_sum, List.range'_eq_map_range, List.map_map, zero_add]
    rfl

lemma corrected_eq (a w : ℕ → ℤ) (dl delta0 delta1 xs : K) :
    xs * dl * (((∑ k ∈ Finset.range 16, a k * w k : ℤ) : K) +
      delta0 * ((∑ k ∈ Finset.range 8, a k : ℤ) : K) +
      delta1 * ((∑ k ∈ Finset.range 8, a (8 + k) : ℤ) : K)) =
        ∑ k ∈ Finset.range 16, xs * (a k : K) * (dl * ((w k : K) +
          if k < 8 then delta0 else delta1)) := by
  have half (a w : ℕ → ℤ) (delta : K) : ∑ k ∈ Finset.range 8, xs * (a k : K) *
      (dl * ((w k : K) + delta)) = xs * dl * (((∑ k ∈ Finset.range 8, a k * w k : ℤ) : K) +
        delta * ((∑ k ∈ Finset.range 8, a k : ℤ) : K)) := by
    push_cast
    rw [Finset.mul_sum _ _ delta, ← Finset.sum_add_distrib, Finset.mul_sum]
    refine Finset.sum_congr rfl fun k _ => ?_
    ring
  have low : ∑ k ∈ Finset.range 8, xs * (a k : K) * (dl * ((w k : K) +
      if k < 8 then delta0 else delta1)) = _ :=
    (Finset.sum_congr rfl fun k member => by rw [if_pos (Finset.mem_range.mp member)]).trans
      (half a w delta0)
  have high : ∑ k ∈ Finset.range 8, xs * (a (8 + k) : K) * (dl * ((w (8 + k) : K) +
      if 8 + k < 8 then delta0 else delta1)) = _ :=
    (Finset.sum_congr rfl fun k _ => by rw [if_neg (by omega)]).trans
      (half (fun k => a (8 + k)) (fun k => w (8 + k)) delta1)
  rw [Finset.sum_range_add _ 8 8, Finset.sum_range_add _ 8 8, low, high]
  push_cast
  ring

lemma tileAcc_eq (dvd : 256 ∣ width) (x : ℕ → Q8 K) {i : ℕ} (there : b.there (b.row i))
    (inside : b.col i < cols) : tileAcc b books x data cols width i =
      ∑ k ∈ Finset.range width, (x (b.place (b.row i))).value 16 k *
        iq1Row books data width (b.expert * cols + b.col i) k := by
  have sixteen : 16 ∣ width := dvd_trans (by decide) dvd
  have whole : width / 16 * 16 = width := Nat.div_mul_cancel sixteen
  unfold tileAcc
  rw [cdiv_of_dvd (by decide) sixteen]
  refine (loop_range_sum (fun acc : ℕ → K => acc i) (fun kg => ∑ k ∈ Finset.range 16,
    (x (b.place (b.row i))).value 16 (kg * 16 + k) *
      iq1Row books data width (b.expert * cols + b.col i) (kg * 16 + k)) _ ?_ _).trans ?_
  · intro kg lt acc
    have block := tileBlock_eq b data dvd inside lt
    have sums := half_sums (aTile b x width (kg * 16)) (i / 16 * 16)
    have low : kg &&& 15 = kg % 16 := Nat.and_two_pow_sub_one_eq_mod kg 4
    have meta_ : tileMeta b books data cols width kg (i % 16) = iq1mGroupMeta books (bytesFrom data
        (((b.expert * cols + b.col i) * (width / 256) + kg / 16) * 56)) (kg % 16) := by
      have column : tileBlock b data cols width (b.colBase + i % 16) kg = _ := block
      unfold tileMeta
      rw [column, ← low]
    dsimp only
    rw [if_pos ⟨there, inside⟩, sums.1, sums.2, meta_, mma, zero_add,
      corrected_eq (fun k => aTile b x width (kg * 16) (i / 16 * 16 + k))
        fun k => bTile b books data cols width kg (k + i % 16 * 16)]
    refine congrArg (acc i + ·) (Finset.sum_congr rfl fun k member => ?_)
    have sixteenth := Finset.mem_range.mp member
    have group : (kg * 16 + k) / 256 = kg / 16 := by omega
    have rest : (kg * 16 + k) % 256 = kg % 16 * 16 + k := by omega
    rw [aTile_eq b x there sixteenth (by omega), bTile_eq b dvd inside lt sixteenth,
      iq1mGroup_weight _ (Nat.mod_lt kg (by decide)) sixteenth, iq1Row, rowsOf, group, rest,
      Q8.value, mul_add_div_of_lt sixteenth]
  · have parts := sum_parts (fun k => (x (b.place (b.row i))).value 16 k *
      iq1Row books data width (b.expert * cols + b.col i) k) (width / 16) 16
    rw [whole] at parts
    exact (zero_add _).trans parts

end Tiles

/-! ## Quantised rows -/

section Quantiser

variable [LinearOrder K] [IsStrictOrderedRing K] [FloorRing K]

/-- What a quantised row stands for. -/
def dequantized (size : ℕ) (h : ℕ → K) : ℕ → K := (quantizeQ8 size h).value size

lemma halfEven_zero : halfEven (0 : K) = 0 := by
  refine halfEven_of_lt ?_
  rw [Int.cast_zero, sub_zero, abs_zero]
  norm_num

lemma clamp_neg (q : ℤ) : max (-127) (min 127 (-q)) = -max (-127) (min 127 q) := by omega

omit [IsStrictOrderedRing K] in
lemma dequantized_eq (size : ℕ) (h : ℕ → K) (k : ℕ) : dequantized size h k =
    let scale := groupScale size fun lane => h (k / size * size + lane)
    scale * (max (-127) (min 127 (halfEven (h k / scale))) : ℤ) := by
  unfold dequantized quantizeQ8 Q8.value
  dsimp only
  rw [BitVec.toInt_ofInt_eq_self (by decide) (by omega) (by omega)]

omit [FloorRing K] in
lemma greatest_mul (size : ℕ) (w : K) (h : ℕ → K) :
    warpDown max 32 (size / 2) (fun lane => |w * h lane|) 0 =
      |w| * warpDown max 32 (size / 2) (fun lane => |h lane|) 0 := by
  have hom (a b : K) : |w| * max a b = max (|w| * a) (|w| * b) :=
    mul_max_of_nonneg a b (abs_nonneg w)
  rw [warpDown_map hom]
  simp only [abs_mul]

omit [IsStrictOrderedRing K] [FloorRing K] in
lemma le_greatest {p : ℕ} (small : p ≤ 5) (h : ℕ → K) {lane : ℕ} (inside : lane < 2 ^ p) :
    |h lane| ≤ warpDown max 32 (2 ^ p / 2) (fun lane => |h lane|) 0 := by
  have fits : 2 ^ p ≤ 32 := Nat.pow_le_pow_right (by decide) small
  have lub : IsLUB {k | ∃ tid < 2 ^ p, k ∈ ({|h tid|} : Set K)}
      (id (treeReduce max (2 ^ p / 2) (fun lane => |h lane|) 0)) :=
    treeReduce_isLUB (fun _ _ => rfl) fun _ _ => isLUB_singleton
  rw [warpDown_eq max fits fun _ _ => rfl]
  exact lub.1 ⟨lane, inside, rfl⟩

lemma scaled_code {w scale : K} (some : w ≠ 0) (pos : 0 < scale) (v : K) :
    |w| * scale * ((max (-127) (min 127 (halfEven (w * v / (|w| * scale)))) : ℤ) : K) =
      w * (scale * ((max (-127) (min 127 (halfEven (v / scale))) : ℤ) : K)) := by
  have scaled : scale ≠ 0 := pos.ne'
  rcases lt_or_gt_of_ne some with neg | positive
  · have ratio : w * v / (|w| * scale) = -(v / scale) := by
      rw [abs_of_neg neg]
      field_simp
    rw [ratio, halfEven_neg, clamp_neg, abs_of_neg neg]
    push_cast
    ring
  · have ratio : w * v / (|w| * scale) = v / scale := by
      rw [abs_of_pos positive]
      field_simp
    rw [ratio, abs_of_pos positive]
    ring

lemma dequantized_mul {p : ℕ} (small : p ≤ 5) (h : ℕ → K) (w : K) (k : ℕ) :
    dequantized (2 ^ p) (fun j => w * h j) k = w * dequantized (2 ^ p) h k := by
  have zero : (max (-127) (min 127 (halfEven (0 : K))) : ℤ) = 0 := by
    rw [halfEven_zero]
    decide
  have inside : k % 2 ^ p < 2 ^ p := Nat.mod_lt k (Nat.two_pow_pos p)
  have bound := le_greatest small (fun lane => h (k / 2 ^ p * 2 ^ p + lane)) inside
  have greatest := greatest_mul (2 ^ p) w fun lane => h (k / 2 ^ p * 2 ^ p + lane)
  rw [Nat.div_add_mod'] at bound
  rw [dequantized_eq, dequantized_eq]
  unfold groupScale
  dsimp only
  rw [greatest]
  generalize warpDown max 32 (2 ^ p / 2) (fun lane => |h (k / 2 ^ p * 2 ^ p + lane)|) 0 = maxv
    at bound ⊢
  rcases eq_or_ne w 0 with rfl | some
  · rw [zero_mul, zero_div, zero, Int.cast_zero, mul_zero, zero_mul]
  · have weight : 0 < |w| := abs_pos.mpr some
    rcases lt_or_ge 0 maxv with pos | none
    · rw [if_pos pos, if_pos (mul_pos weight pos), mul_div_assoc]
      exact scaled_code some (div_pos pos (by norm_num)) (h k)
    · -- a group of zeros
      have value : h k = 0 := abs_nonpos_iff.mp (bound.trans none)
      rw [value, mul_zero, zero_div, zero_div, zero, Int.cast_zero, mul_zero, mul_zero, mul_zero]

end Quantiser

end PocketMoE.Engine.GgufMoe
