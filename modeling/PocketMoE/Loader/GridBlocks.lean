import PocketMoE.Loader.KBlocks

/-!
# Decoding IQ2_XXS and IQ1_M

Model of `_read_iq2_xxs_rows` and `_read_iq1_m_rows` of `tensor_reader.py` for one block, up to the
rows of the grids and the products with them. Eight values share a row of a grid, and a sign is of
one value (IQ2_XXS, where the eighth sign is the parity of the seven that are stored) or of the
shift of all eight (IQ1_M).

All decoders but the one of Q6_K follow the layouts of their blocks (`decoders_followed`).
-/

namespace PocketMoE.Loader.Python
open PocketMoE.Lib

/-- What a value is decoded from: an odd scale, a row of a grid and a sign. -/
structure GridValue where
  scale : Nat
  grid : Nat
  negative : Bool
deriving DecidableEq

/-- What a block is decoded from. -/
structure GridBlock where
  d : Nat
  values : List GridValue
deriving DecidableEq

/-! ## The decoders -/

/-- `int.bit_count` of a byte. -/
def bitCount (n : Nat) : Nat := (List.range 8).countP n.testBit

/-- The signs of `_iq2xxs_signed_grid`. -/
def signedGridNegative (idx lane : Nat) : Bool :=
  let signMask := idx ||| (bitCount idx &&& 1) <<< 7
  decide (signMask &&& 1 <<< lane ≠ 0)

/-- The loops of `_read_iq2_xxs_rows`. -/
def readIq2Xxs (block : Nat → Byte) : GridBlock :=
  let qs := bytesFrom block 2
  let values := (List.range 8).flatMap fun sub =>
    let chunk (t : Nat) := (qs (sub * 8 + t)).val
    let aux1 := chunk 4 ||| chunk 5 <<< 8 ||| chunk 6 <<< 16 ||| chunk 7 <<< 24
    let ls := 2 * (aux1 >>> 28) + 1
    (List.range 4).flatMap fun part =>
      let gridIds := chunk part
      let signIdx := aux1 >>> (7 * part) &&& 127
      (List.range 8).map fun lane => ⟨ls, gridIds, signedGridNegative signIdx lane⟩
  ⟨f16Bits block 0, values⟩

/-- The arrays of `_read_iq1_m_rows`, which are reshaped: a function has the number of an element in
row-major order. -/
def readIq1M (block : Nat → Byte) : GridBlock :=
  let qs := bytesFrom block 0
  let qh := bytesFrom block 32
  let scales (w : Nat) := leWord block (48 + 2 * w) 2
  let d := (scales 0 &&& 0xF000) >>> 12 ||| (scales 1 &&& 0xF000) >>> 8 |||
    (scales 2 &&& 0xF000) >>> 4 ||| (scales 3 &&& 0xF000) >>> 0
  let localScales (k : Nat) := scales (k / 4) >>> (3 * (k % 4)) &&& 0x07
  let dl (k : Nat) := 2 * localScales k + 1
  let qhParts (k : Nat) := (qh (k / 2)).val >>> (4 * (k % 2))
  let qidx (k : Nat) := (qs k).val ||| (qhParts k &&& 0x07) <<< 8
  let delta (k : Nat) := decide (qhParts k &&& 0x08 ≠ 0)
  ⟨d, (List.range 256).map fun i => ⟨dl (i / 16), qidx (i / 8), delta (i / 8)⟩⟩

/-! ## The layouts -/

/-- Where the numbers of a block are: a scale is for a group of values, a row of the grid and signs
are for eight values. -/
structure GridLayout where
  d : List Nat
  group : Nat
  scale : Nat → List Nat
  grid : Nat → List Nat
  signs : Nat → List Nat
  negative : Nat → Nat → Bool

namespace GridLayout

variable (l : GridLayout)

/-- All fields. -/
def fields : List (List Nat) :=
  l.d :: (List.range (256 / l.group)).map l.scale ++
    (List.range 32).flatMap fun p => [l.grid p, l.signs p]

/-- A value of a block. -/
def value (block : Nat → Byte) (i : Nat) : GridValue where
  scale := 2 * bitsAt block (l.scale (i / l.group)) + 1
  grid := bitsAt block (l.grid (i / 8))
  negative := l.negative (bitsAt block (l.signs (i / 8))) (i % 8)

/-- The numbers of a block. -/
def read (block : Nat → Byte) : GridBlock where
  d := bitsAt block l.d
  values := (List.range 256).map (l.value block)

/-- A decoder and a kernel follow a layout that has every bit of a block once. -/
structure FollowedBy (bytes : Nat) (read : (Nat → Byte) → GridBlock) (d : (Nat → Byte) → Nat)
    (products : (Nat → Byte) → List (Nat × GridValue)) : Prop where
  once : UsedOnce (8 * bytes) l.fields
  decoded : ∀ block, read block = l.read block
  reference : ∀ block, d block = bitsAt block l.d ∧
    (products block).Perm ((List.range 256).map fun i => (i, l.value block i))

end GridLayout

/-- Seven signs are stored, and the eighth makes them even. -/
def evenSigns (signs lane : Nat) : Bool :=
  if lane < 7 then signs.testBit lane else bitCount signs % 2 == 1

/-- `block_iq2_xxs`: for 32 values four bytes of rows, and a word of four times seven signs and a
scale. -/
def iq2Xxs : GridLayout where
  d := bitRun 0 0 16
  group := 32
  scale s := bitRun (6 + 8 * s) 28 4
  grid p := bitRun (2 + 8 * (p / 4) + p % 4) 0 8
  signs p := bitRun (6 + 8 * (p / 4)) (7 * (p % 4)) 7
  negative := evenSigns

/-- `block_iq1_m`: the rows have 11 bits, of two bytes, and the block's scale is in the high bits of
the words of the scales. -/
def iq1M : GridLayout where
  d := bitRun 49 4 4 ++ (bitRun 51 4 4 ++ (bitRun 53 4 4 ++ bitRun 55 4 4))
  group := 16
  scale s := bitRun (48 + 2 * (s / 4)) (3 * (s % 4)) 3
  grid p := bitRun p 0 8 ++ bitRun (32 + p / 2) (4 * (p % 2)) 3
  signs p := bitRun (32 + p / 2) (4 * (p % 2) + 3) 1
  negative signs _ := signs.testBit 0

/-! ## The kernels -/

/-- `unpack_ksigns`, of a byte. -/
def unpackKsigns (v : Nat) : Nat := v ^^^ (bitCount v &&& 1) <<< 7

/-- A call of `vec_dot_iq2_xxs_q8_1` with `iqs` as twice a number. -/
def vecDotIq2Xxs (block : Nat → Byte) (half : Nat) : List (Nat × GridValue) :=
  let aux8 (k : Nat) := (block (2 + (8 * half + k))).val
  let aux32 := leWord block (6 + 8 * half) 4
  let ls := aux32 >>> 27 ||| 1
  (List.range 4).flatMap fun k => (List.range 8).map fun lane =>
    let signs := unpackKsigns (aux32 >>> (7 * k) % 256)
    (32 * half + (8 * k + lane), ⟨ls, aux8 k, decide (signs &&& 1 <<< lane ≠ 0)⟩)

/-- `iq1m_scale_t` of `vec_dot_iq1_m_q8_1`. -/
def iq1mScale (block : Nat → Byte) : Nat :=
  let sc (w : Nat) := leWord block (48 + 2 * w) 2
  sc 0 >>> 12 ||| sc 1 >>> 8 &&& 0x00F0 ||| sc 2 >>> 4 &&& 0x0F00 ||| sc 3 &&& 0xF000

/-- A call of `vec_dot_iq1_m_q8_1`. -/
def vecDotIq1M (block : Nat → Byte) (iqs : Nat) : List (Nat × GridValue) :=
  let sc (w : Nat) := leWord block (48 + 2 * w) 2
  let tmp := sc (iqs / 2) >>> (6 * (iqs % 2))
  (List.range 4).flatMap fun l => (List.range 8).map fun lane =>
    let qhl := (block (32 + (2 * iqs + l / 2))).val >>> (4 * (l % 2))
    let grid := (block (4 * iqs + l)).val ||| (qhl &&& 0x07) <<< 8
    (32 * iqs + (8 * l + lane),
      ⟨2 * (tmp >>> (3 * (l / 2)) &&& 0x07) + 1, grid, decide (qhl &&& 0x08 ≠ 0)⟩)

/-- The values that the calls meet, row by row. -/
def rowPlaces : List Nat :=
  (List.range 8).flatMap fun group => (List.range 4).flatMap fun k =>
    (List.range 8).map fun lane => 32 * group + (8 * k + lane)

lemma gridPlaces_masks :
    ∀ p ∈ [(iq2Xxs.fields.flatten, 8 * 66), (iq1M.fields.flatten, 8 * 56), (rowPlaces, 256)],
      p.1.length = p.2 ∧ p.1.foldr (fun q mask => 1 <<< q ||| mask) 0 = 2 ^ p.2 - 1 := by
  decide +kernel

lemma gridPlaces_perm :
    UsedOnce (8 * 66) iq2Xxs.fields ∧ UsedOnce (8 * 56) iq1M.fields ∧
      rowPlaces.Perm (List.range 256) := by
  have masks := gridPlaces_masks
  simp only [List.forall_mem_cons] at masks
  obtain ⟨two, one, rows, -⟩ := masks
  exact ⟨perm_range_of_mask two.1 two.2, perm_range_of_mask one.1 one.2,
    perm_range_of_mask rows.1 rows.2⟩

/-! ## IQ2_XXS -/

section

variable {block : Nat → Byte}

lemma join_four (start : Nat) :
    (block start).val ||| (block (start + 1)).val <<< 8 ||| (block (start + 2)).val <<< 16 |||
      (block (start + 3)).val <<< 24 = bitsAt block (bitRun start 0 32) := by
  rw [← leWord_eq start 4]
  simp only [leWord, Nat.shiftLeft_or_distrib, ← Nat.shiftLeft_add, Nat.reduceAdd, Nat.add_assoc,
    Nat.or_assoc, Nat.zero_shiftLeft, Nat.or_zero]

lemma aux_word (sub : Nat) :
    (block (2 + (sub * 8 + 4))).val ||| (block (2 + (sub * 8 + 5))).val <<< 8 |||
      (block (2 + (sub * 8 + 6))).val <<< 16 ||| (block (2 + (sub * 8 + 7))).val <<< 24 =
      bitsAt block (bitRun (6 + 8 * sub) 0 32) := by
  have first : 2 + (sub * 8 + 4) = 6 + 8 * sub := by omega
  have second : 2 + (sub * 8 + 5) = 6 + 8 * sub + 1 := by omega
  have third : 2 + (sub * 8 + 6) = 6 + 8 * sub + 2 := by omega
  have fourth : 2 + (sub * 8 + 7) = 6 + 8 * sub + 3 := by omega
  rw [first, second, third, fourth, join_four]

lemma signs_eq :
    (∀ idx < 128, ∀ lane < 8, signedGridNegative idx lane = evenSigns idx lane) ∧
      ∀ v < 256, ∀ lane < 8,
        decide (unpackKsigns v &&& 1 <<< lane ≠ 0) = evenSigns (v % 128) lane := by
  decide +kernel

lemma or_one (n : Nat) : n ||| 1 = 2 * (n >>> 1) + 1 := by
  have odd : n >>> 1 <<< 1 ||| 1 = n ||| 1 := by
    apply Nat.eq_of_testBit_eq
    intro k
    cases k with
    | zero => simp
    | succ k => simp [Nat.add_comm 1 k]
  rw [← odd, ← Nat.shiftLeft_add_eq_or_of_lt (by decide), Nat.shiftLeft_eq, Nat.pow_one,
    Nat.mul_comm]

lemma iq2Xxs_value (i : Nat) :
    iq2Xxs.value block i =
      ⟨2 * bitsAt block (bitRun (6 + 8 * (i / 8 / 4)) 28 4) + 1,
        bitsAt block (bitRun (2 + 8 * (i / 8 / 4) + i / 8 % 4) 0 8),
        evenSigns (bitsAt block (bitRun (6 + 8 * (i / 8 / 4)) (7 * (i / 8 % 4)) 7)) (i % 8)⟩ := by
  have group : i / iq2Xxs.group = i / 8 / 4 := (Nat.div_div_eq_div_mul i 8 4).symm
  rw [GridLayout.value, group]
  rfl

lemma readIq2Xxs_eq (block : Nat → Byte) : readIq2Xxs block = iq2Xxs.read block := by
  unfold readIq2Xxs GridLayout.read
  dsimp only
  rw [f16Bits, leWord_eq]
  simp only [flatMap_range _ (by decide : 0 < 8), Nat.reduceMul]
  rw [flatMap_range 8 (by decide)]
  congr 1
  apply List.map_congr_left
  intro i inside
  have below := List.mem_range.mp inside
  unfold bytesFrom
  have row : 2 + (i / 32 * 8 + i % 32 / 8) = 2 + 8 * (i / 8 / 4) + i / 8 % 4 := by omega
  have group : i / 32 = i / 8 / 4 := by omega
  have part : i % 32 / 8 = i / 8 % 4 := by omega
  have lane : i % 32 % 8 = i % 8 := by omega
  have seven : bitsAt block (bitRun (6 + 8 * (i / 8 / 4)) (7 * (i / 8 % 4)) 7) < 2 ^ _ :=
    bitsAt_lt _
  rw [length_run] at seven
  rw [aux_word, word_shift (rfl : 28 + 4 = 32), word_mask 127 7 rfl (by omega), row, lane, part,
    group, signs_eq.1 _ seven _ (Nat.mod_lt _ (by decide)), whole_byte, iq2Xxs_value]

lemma vecDotIq2Xxs_perm (block : Nat → Byte) :
    ((List.range 8).flatMap (vecDotIq2Xxs block)).Perm
      ((List.range 256).map fun i => (i, iq2Xxs.value block i)) := by
  apply perm_of_products
  · intro product member
    obtain ⟨half, call, member⟩ := List.mem_flatMap.mp member
    obtain ⟨k, four, member⟩ := List.mem_flatMap.mp member
    obtain ⟨lane, eight, rfl⟩ := List.mem_map.mp member
    rw [List.mem_range] at call four eight
    dsimp only
    generalize eq : 32 * half + (8 * k + lane) = v
    have row : 2 + (8 * half + k) = 2 + 8 * (v / 8 / 4) + v / 8 % 4 := by omega
    have group : half = v / 8 / 4 := by omega
    have part : k = v / 8 % 4 := by omega
    have column : lane = v % 8 := by omega
    have low (n : Nat) : n % 256 % 128 = n &&& 127 := by
      rw [Nat.mod_mod_of_dvd n (by decide : 128 ∣ 256)]
      exact (Nat.and_two_pow_sub_one_eq_mod n 7).symm
    rw [signs_eq.2 _ (Nat.mod_lt _ (by decide)) _ eight, low, leWord_eq, or_one,
      ← Nat.shiftRight_add, word_shift (rfl : 27 + 1 + 4 = 8 * 4), word_mask 127 7 rfl (by omega),
      row, whole_byte, iq2Xxs_value, ← group, ← part, ← column]
  · have places : ((List.range 8).flatMap (vecDotIq2Xxs block)).map Prod.fst = rowPlaces := by
      simp only [vecDotIq2Xxs, rowPlaces, List.map_flatMap, List.map_map, Function.comp_def]
    exact places ▸ gridPlaces_perm.2.2

lemma iq2Xxs_followedBy :
    iq2Xxs.FollowedBy 66 readIq2Xxs (fun block => leWord block 0 2) fun block =>
      (List.range 8).flatMap (vecDotIq2Xxs block) where
  once := gridPlaces_perm.1
  decoded := readIq2Xxs_eq
  reference block := ⟨leWord_eq 0 2, vecDotIq2Xxs_perm block⟩

end

/-! ## IQ1_M -/

section

variable {block : Nat → Byte}

lemma high_nibble (n : Nat) {s t : Nat} (sum : s + t = 12) :
    n >>> s &&& 0xF <<< t = (n >>> 12 &&& 0xF) <<< t := by
  apply Nat.eq_of_testBit_eq
  intro k
  rw [Nat.testBit_and, Nat.testBit_shiftLeft, Nat.testBit_shiftLeft, Nat.testBit_and,
    Nat.testBit_shiftRight, Nat.testBit_shiftRight]
  rcases Nat.lt_or_ge k t with below | here
  · rw [decide_eq_false (Nat.not_le.mpr below), Bool.false_and, Bool.false_and, Bool.and_false]
  · have place : 12 + (k - t) = s + k := by omega
    rw [decide_eq_true here, Bool.true_and, Bool.true_and, place]

lemma word_nibble (byte : Nat) :
    leWord block byte 2 >>> 12 &&& 0xF = bitsAt block (bitRun (byte + 1) 4 4) := by
  rw [leWord_eq, word_mask 0xF 4 rfl (by decide)]
  rfl

lemma word_nibble_alone (byte : Nat) :
    leWord block byte 2 >>> 12 &&& 0xF = leWord block byte 2 >>> 12 := by
  rw [word_nibble, leWord_eq, word_shift (rfl : 12 + 4 = 8 * 2)]
  rfl

lemma iq1mScale_eq (block : Nat → Byte) : iq1mScale block = bitsAt block iq1M.d := by
  have second : leWord block 50 2 >>> 8 &&& 0x00F0 = _ := high_nibble _ (rfl : 8 + 4 = 12)
  have third : leWord block 52 2 >>> 4 &&& 0x0F00 = _ := high_nibble _ (rfl : 4 + 8 = 12)
  have fourth : leWord block 54 2 &&& 0xF000 = _ :=
    high_nibble (leWord block 54 2) (rfl : 0 + 12 = 12)
  unfold iq1mScale
  dsimp only
  rw [← word_nibble_alone, second, third, fourth, word_nibble, word_nibble, word_nibble,
    word_nibble]
  show _ = bitsAt block (bitRun 49 4 4 ++ (bitRun 51 4 4 ++ (bitRun 53 4 4 ++ bitRun 55 4 4)))
  simp only [bitsAt_append, length_run, Nat.shiftLeft_or_distrib, ← Nat.shiftLeft_add, Nat.or_assoc]

lemma masked_words (block : Nat → Byte) :
    (leWord block 48 2 &&& 0xF000) >>> 12 ||| (leWord block 50 2 &&& 0xF000) >>> 8 |||
      (leWord block 52 2 &&& 0xF000) >>> 4 ||| (leWord block 54 2 &&& 0xF000) >>> 0 =
      iq1mScale block := by
  have first : leWord block 48 2 >>> 12 &&& 0xF000 >>> 12 = _ := word_nibble_alone 48
  rw [Nat.shiftRight_and_distrib, Nat.shiftRight_and_distrib, Nat.shiftRight_and_distrib, first]
  rfl

lemma flag_bit (byte : Nat) {s : Nat} (inside : s + 3 < 8) :
    decide ((block byte).val >>> s &&& 0x08 ≠ 0) =
      (bitsAt block (bitRun byte (s + 3) 1)).testBit 0 := by
  have power : (block byte).val >>> s &&& 0x08 = _ := Nat.and_two_pow ((block byte).val >>> s) 3
  rw [power, Nat.testBit_shiftRight, ← shift_mask 1 1 rfl inside, Nat.testBit_and,
    Nat.testBit_shiftRight]
  cases (block byte).val.testBit (s + 3) with
  | false => rfl
  | true => rfl

lemma readIq1M_eq (block : Nat → Byte) : readIq1M block = iq1M.read block := by
  unfold readIq1M GridLayout.read
  dsimp only
  congr 1
  · rw [← iq1mScale_eq, ← masked_words]
  · apply List.map_congr_left
    intro i _
    have wide : bitsAt block (bitRun (i / 8) 0 8 ++ bitRun (32 + i / 8 / 2) (4 * (i / 8 % 2)) 3) =
        bitsAt block (iq1M.grid (i / 8)) := rfl
    unfold bytesFrom
    rw [leWord_eq, word_mask 0x07 3 rfl (by omega), shift_mask 0x07 3 rfl (by omega),
      flag_bit _ (by omega), whole_byte (0 + i / 8), Nat.zero_add, GridLayout.value, ← wide,
      bitsAt_append, length_run]
    rfl

lemma vecDotIq1M_perm (block : Nat → Byte) :
    ((List.range 8).flatMap (vecDotIq1M block)).Perm
      ((List.range 256).map fun i => (i, iq1M.value block i)) := by
  apply perm_of_products
  · intro product member
    obtain ⟨iqs, call, member⟩ := List.mem_flatMap.mp member
    obtain ⟨l, four, member⟩ := List.mem_flatMap.mp member
    obtain ⟨lane, eight, rfl⟩ := List.mem_map.mp member
    rw [List.mem_range] at call four eight
    dsimp only
    generalize eq : 32 * iqs + (8 * l + lane) = v
    have grid : bitRun (4 * iqs + l) 0 8 ++ bitRun (32 + (2 * iqs + l / 2)) (4 * (l % 2)) 3 =
        iq1M.grid (v / 8) := by
      show _ = bitRun _ _ _ ++ bitRun _ _ _
      congr 2 <;> omega
    have signs : bitRun (32 + (2 * iqs + l / 2)) (4 * (l % 2) + 3) 1 = iq1M.signs (v / 8) := by
      show _ = bitRun _ _ _
      congr 1 <;> omega
    have scale : bitRun (48 + 2 * (iqs / 2)) (6 * (iqs % 2) + 3 * (l / 2)) 3 =
        iq1M.scale (v / iq1M.group) := by
      show _ = bitRun (48 + 2 * (v / 16 / 4)) (3 * (v / 16 % 4)) 3
      congr 1 <;> omega
    rw [leWord_eq, ← Nat.shiftRight_add, word_mask 0x07 3 rfl (by omega),
      shift_mask 0x07 3 rfl (by omega), flag_bit _ (by omega), whole_byte (4 * iqs + l),
      GridLayout.value, ← grid, ← signs, ← scale, bitsAt_append, length_run]
    rfl
  · have places : ((List.range 8).flatMap (vecDotIq1M block)).map Prod.fst = rowPlaces := by
      simp only [vecDotIq1M, rowPlaces, List.map_flatMap, List.map_map, Function.comp_def]
    exact places ▸ gridPlaces_perm.2.2

lemma iq1M_followedBy :
    iq1M.FollowedBy 56 readIq1M iq1mScale fun block =>
      (List.range 8).flatMap (vecDotIq1M block) where
  once := gridPlaces_perm.2.1
  decoded := readIq1M_eq
  reference block := ⟨iq1mScale_eq block, vecDotIq1M_perm block⟩

end

/-- The decoders read the fields of the layouts, which have every bit of a block once, and the
kernels read the same fields. -/
theorem decoders_followed :
    (q2K.FollowedBy 84 readQ2K fun block => (List.range 16).flatMap (vecDotQ2K block)) ∧
      (q4K.FollowedBy 144 readQ4K fun block => (List.range 16).flatMap (vecDotQ4K block)) ∧
      (q5K.FollowedBy 176 readQ5K fun block => (List.range 16).flatMap (vecDotQ5K block)) ∧
      (iq2Xxs.FollowedBy 66 readIq2Xxs (fun block => leWord block 0 2) fun block =>
        (List.range 8).flatMap (vecDotIq2Xxs block)) ∧
      iq1M.FollowedBy 56 readIq1M iq1mScale fun block =>
        (List.range 8).flatMap (vecDotIq1M block) :=
  ⟨q2K_followedBy, q4K_followedBy, q5K_followedBy, iq2Xxs_followedBy, iq1M_followedBy⟩

end PocketMoE.Loader.Python
