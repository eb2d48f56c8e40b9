import PocketMoE.Loader.Q6Blocks

/-!
# Decoding Q2_K, Q4_K and Q5_K

Model of `_read_q2_k_rows`, `_read_q4_k_rows` and `_read_q5_k_rows` of `tensor_reader.py` for one
block, up to the products of their numbers. The layouts of the blocks say at which bits the numbers
are (`KLayout`), and the kernels of `vecdotq.cuh` read these.
-/

namespace PocketMoE.Loader.Python
open PocketMoE.Lib

/-- What a value is decoded from, next to the two scales of the block. -/
structure KValue where
  quant : Nat
  scale : Nat
  min : Nat
deriving DecidableEq

/-- What a block is decoded from: the values are `d * scale * quant - dmin * min`. -/
structure KBlock where
  d : Nat
  dmin : Nat
  values : List KValue
deriving DecidableEq

/-! ## The decoders -/

/-- The loop of `_read_q2_k_rows`. -/
def readQ2K (block : Nat → Byte) : KBlock :=
  let scales := bytesFrom block 0
  let qs := bytesFrom block 16
  let values := (List.range 16).flatMap fun group =>
    let halfBlock := group / 8
    let groupInHalf := group % 8
    let shift := groupInHalf / 2 * 2
    let byteStart := halfBlock * 32 + groupInHalf % 2 * 16
    (List.range 16).map fun t =>
      ⟨(qs (byteStart + t)).val >>> shift &&& 0x03, (scales group).val &&& 0x0F,
        (scales group).val >>> 4⟩
  ⟨f16Bits block 80, f16Bits block 82, values⟩

/-- `_get_scale_min_k4`. -/
def getScaleMinK4 (scales : Nat → Byte) (idx : Nat) : Nat × Nat :=
  if idx < 4 then ((scales idx).val &&& 63, (scales (idx + 4)).val &&& 63)
  else
    ((scales (idx + 4)).val &&& 0x0F ||| ((scales (idx - 4)).val >>> 6) <<< 4 % 256,
      (scales (idx + 4)).val >>> 4 ||| ((scales idx).val >>> 6) <<< 4 % 256)

/-- The loop of `_read_q4_k_rows`. -/
def readQ4K (block : Nat → Byte) : KBlock :=
  let scales := bytesFrom block 4
  let qs := bytesFrom block 16
  let values := (List.range 4).flatMap fun pair =>
    let q (t : Nat) := (qs (pair * 32 + t)).val
    let lower := getScaleMinK4 scales (pair * 2)
    let upper := getScaleMinK4 scales (pair * 2 + 1)
    ((List.range 32).map fun t => ⟨q t &&& 0x0F, lower.1, lower.2⟩) ++
      (List.range 32).map fun t => ⟨q t >>> 4, upper.1, upper.2⟩
  ⟨f16Bits block 0, f16Bits block 2, values⟩

/-- A pass of the loop of `_read_q5_k_rows`; `u1` and `u2` are the masks of `qh`. -/
def readQ5Pair (block : Nat → Byte) (pair u1 u2 : Nat) : List KValue :=
  let scales := bytesFrom block 4
  let high (t : Nat) := (bytesFrom block 16 t).val
  let q (t : Nat) := (bytesFrom block 48 (pair * 32 + t)).val
  let lower := getScaleMinK4 scales (pair * 2)
  let qLow (t : Nat) := (q t &&& 0x0F) + if high t &&& u1 ≠ 0 then 16 else 0
  let upper := getScaleMinK4 scales (pair * 2 + 1)
  let qHigh (t : Nat) := (q t >>> 4) + if high t &&& u2 ≠ 0 then 16 else 0
  ((List.range 32).map fun t => ⟨qLow t, lower.1, lower.2⟩) ++
    (List.range 32).map fun t => ⟨qHigh t, upper.1, upper.2⟩

/-- The passes for some pairs. -/
def readQ5Pairs (block : Nat → Byte) : List Nat → Nat → Nat → List KValue
  | [], _, _ => []
  | pair :: pairs, u1, u2 =>
    readQ5Pair block pair u1 u2 ++ readQ5Pairs block pairs (u1 <<< 2) (u2 <<< 2)

/-- The loop of `_read_q5_k_rows`. -/
def readQ5K (block : Nat → Byte) : KBlock :=
  ⟨f16Bits block 0, f16Bits block 2, readQ5Pairs block (List.range 4) 1 2⟩

/-! ## The layouts -/

/-- Where the numbers of a block are: a scale and a minimum are for a group of values. -/
structure KLayout where
  d : List Nat
  dmin : List Nat
  group : Nat
  quant : Nat → List Nat
  scale : Nat → List Nat
  min : Nat → List Nat

namespace KLayout

variable (l : KLayout)

/-- All fields. -/
def fields : List (List Nat) :=
  l.d :: l.dmin :: (List.range (256 / l.group)).flatMap (fun s => [l.scale s, l.min s]) ++
    (List.range 256).map l.quant

/-- A value of a block. -/
def value (block : Nat → Byte) (i : Nat) : KValue where
  quant := bitsAt block (l.quant i)
  scale := bitsAt block (l.scale (i / l.group))
  min := bitsAt block (l.min (i / l.group))

/-- The numbers of a block. -/
def read (block : Nat → Byte) : KBlock where
  d := bitsAt block l.d
  dmin := bitsAt block l.dmin
  values := (List.range 256).map (l.value block)

/-- A decoder and a kernel follow a layout that has every bit of a block once. -/
structure FollowedBy (bytes : Nat) (read : (Nat → Byte) → KBlock)
    (products : (Nat → Byte) → List (Nat × KValue)) : Prop where
  once : UsedOnce (8 * bytes) l.fields
  decoded : ∀ block, read block = l.read block
  reference : ∀ block, (products block).Perm ((List.range 256).map fun i => (i, l.value block i))

end KLayout

/-- `block_q2_K`: a byte for a scale and a minimum, and 32 bytes for the 128 values of a half. -/
def q2K : KLayout where
  d := bitRun 80 0 16
  dmin := bitRun 82 0 16
  group := 16
  quant i := bitRun (16 + 32 * (i / 128) + i % 32) (2 * (i % 128 / 32)) 2
  scale s := bitRun s 0 4
  min s := bitRun s 4 4

/-- The six bits of a scale of `block_q4_K` and `block_q5_K`. -/
def k4Scale (s : Nat) : List Nat :=
  if s < 4 then bitRun (4 + s) 0 6 else bitRun (8 + s) 0 4 ++ bitRun s 6 2

/-- The six bits of a minimum. -/
def k4Min (s : Nat) : List Nat :=
  if s < 4 then bitRun (8 + s) 0 6 else bitRun (8 + s) 4 4 ++ bitRun (4 + s) 6 2

/-- `block_q4_K`: 32 bytes for 64 values. -/
def q4K : KLayout where
  d := bitRun 0 0 16
  dmin := bitRun 2 0 16
  group := 32
  quant i := bitRun (16 + 32 * (i / 64) + i % 32) (4 * (i % 64 / 32)) 4
  scale := k4Scale
  min := k4Min

/-- `block_q5_K`: the high bits of 8 groups are in 32 bytes. -/
def q5K : KLayout where
  d := bitRun 0 0 16
  dmin := bitRun 2 0 16
  group := 32
  quant i := bitRun (48 + 32 * (i / 64) + i % 32) (4 * (i % 64 / 32)) 4 ++
    bitRun (16 + i % 32) (i / 32) 1
  scale := k4Scale
  min := k4Min

/-! ## The kernels

A call multiplies some values with the values of another vector, and these lists say which of them
meet. The kernels work on words, whose bytes the masks keep apart. -/

/-- A call of `vec_dot_q2_K_q8_1`. -/
def vecDotQ2K (block : Nat → Byte) (iqs : Nat) : List (Nat × KValue) :=
  let bq8Offset := 4 * (iqs / 8)
  let scaleOffset := iqs - iqs % 8 + iqs % 8 / 4
  let v (j : Nat) := (block (16 + (4 * iqs + j))).val
  (List.range 4).flatMap fun i => (List.range 4).map fun j =>
    let sc := (block (scaleOffset + 2 * i)).val
    (32 * (bq8Offset + i) + (4 * (iqs % 8) + j), ⟨v j >>> (2 * i) &&& 0x03, sc &&& 0xF, sc >>> 4⟩)

/-- Byte `i` of `aux[0]` and of `aux[1]`, from words of two bytes. -/
def auxScales (block : Nat → Byte) (j i : Nat) : Nat × Nat :=
  let scales (k : Nat) := (block (4 + (2 * k + i))).val
  if j < 2 then (scales j &&& 0x3f, scales (j + 2) &&& 0x3f)
  else (scales (j + 2) &&& 0x0f ||| (scales (j - 2) &&& 0xc0) >>> 2,
    scales (j + 2) >>> 4 &&& 0x0f ||| (scales j &&& 0xc0) >>> 2)

/-- A call of `vec_dot_q4_K_q8_1` with `iqs` as twice a number. -/
def vecDotQ4K (block : Nat → Byte) (half : Nat) : List (Nat × KValue) :=
  let bq8Offset := 2 * (half / 4)
  let q4 (w j : Nat) := (block (16 + (16 * bq8Offset + 4 * (half % 4) + (16 * w + j)))).val
  (List.range 2).flatMap fun i => (List.range 2).flatMap fun w => (List.range 4).map fun j =>
    let scaleMin := auxScales block (bq8Offset / 2) i
    (32 * (bq8Offset + i) + (4 * (half % 4) + (16 * w + j)),
      ⟨q4 w j >>> (4 * i) &&& 0x0F, scaleMin.1, scaleMin.2⟩)

/-- A call of `vec_dot_q5_K_q8_1` with `iqs` as twice a number. -/
def vecDotQ5K (block : Nat → Byte) (half : Nat) : List (Nat × KValue) :=
  let bq8Offset := 2 * (half / 4)
  let vl (w j : Nat) := (block (48 + (16 * bq8Offset + 4 * (half % 4) + (16 * w + j)))).val
  let vh (w j : Nat) := (block (16 + (4 * (half % 4) + (16 * w + j)))).val >>> bq8Offset
  (List.range 2).flatMap fun i => (List.range 2).flatMap fun w => (List.range 4).map fun j =>
    let vli := vl w j >>> (4 * i) &&& 0x0F
    let vhi := (vh w j >>> i) <<< 4 &&& 0x10
    let scaleMin := auxScales block (bq8Offset / 2) i
    (32 * (bq8Offset + i) + (4 * (half % 4) + (16 * w + j)),
      ⟨vli ||| vhi, scaleMin.1, scaleMin.2⟩)

/-! ## Each place once -/

/-- The values that the calls for `block_q2_K` meet. -/
def q2Places : List Nat :=
  (List.range 16).flatMap fun iqs => (List.range 4).flatMap fun i =>
    (List.range 4).map fun j => 32 * (4 * (iqs / 8) + i) + (4 * (iqs % 8) + j)

/-- The values that the calls for the other two meet, word by word. -/
def wordPlaces : List Nat :=
  (List.range 16).flatMap fun half => (List.range 2).flatMap fun i =>
    (List.range 2).flatMap fun w => (List.range 4).map fun j =>
      32 * (2 * (half / 4) + i) + (4 * (half % 4) + (16 * w + j))

lemma kPlaces_masks :
    ∀ p ∈ [(q2K.fields.flatten, 8 * 84), (q4K.fields.flatten, 8 * 144),
        (q5K.fields.flatten, 8 * 176), (q2Places, 256), (wordPlaces, 256)],
      p.1.length = p.2 ∧ p.1.foldr (fun q mask => 1 <<< q ||| mask) 0 = 2 ^ p.2 - 1 := by
  decide +kernel

lemma kPlaces_perm :
    UsedOnce (8 * 84) q2K.fields ∧ UsedOnce (8 * 144) q4K.fields ∧
      UsedOnce (8 * 176) q5K.fields ∧ q2Places.Perm (List.range 256) ∧
      wordPlaces.Perm (List.range 256) := by
  have masks := kPlaces_masks
  simp only [List.forall_mem_cons] at masks
  obtain ⟨two, four, five, places, words, -⟩ := masks
  exact ⟨perm_range_of_mask two.1 two.2, perm_range_of_mask four.1 four.2,
    perm_range_of_mask five.1 five.2, perm_range_of_mask places.1 places.2,
    perm_range_of_mask words.1 words.2⟩

/-! ## Q2_K -/

section

variable {block : Nat → Byte}

lemma readQ2K_eq (block : Nat → Byte) : readQ2K block = q2K.read block := by
  unfold readQ2K KLayout.read
  dsimp only
  rw [f16Bits, f16Bits, leWord_eq, leWord_eq, flatMap_range 16 (by decide)]
  congr 1
  apply List.map_congr_left
  intro i _
  have quant :
      bitRun (16 + (i / 16 / 8 * 32 + i / 16 % 8 % 2 * 16 + i % 16)) (i / 16 % 8 / 2 * 2) 2 =
        q2K.quant i := by
    show _ = bitRun _ _ _
    congr 1 <;> omega
  have scale : bitRun (0 + i / 16) 0 4 = q2K.scale (i / 16) := by rw [Nat.zero_add]; rfl
  have min : bitRun (0 + i / 16) 4 4 = q2K.min (i / 16) := by rw [Nat.zero_add]; rfl
  unfold bytesFrom
  rw [shift_mask 0x03 2 rfl (by omega), and_mask 0x0F 4 rfl (by decide),
    shift_run (rfl : 4 + 4 = 8), quant, scale, min]
  rfl

lemma vecDotQ2K_perm (block : Nat → Byte) :
    ((List.range 16).flatMap (vecDotQ2K block)).Perm
      ((List.range 256).map fun i => (i, q2K.value block i)) := by
  apply perm_of_products
  · intro product member
    obtain ⟨iqs, call, member⟩ := List.mem_flatMap.mp member
    obtain ⟨i, four, member⟩ := List.mem_flatMap.mp member
    obtain ⟨j, four', rfl⟩ := List.mem_map.mp member
    rw [List.mem_range] at call four four'
    dsimp only
    generalize eq : 32 * (4 * (iqs / 8) + i) + (4 * (iqs % 8) + j) = v
    have quant : bitRun (16 + (4 * iqs + j)) (2 * i) 2 = q2K.quant v := by
      show _ = bitRun _ _ _
      congr 1 <;> omega
    have group : iqs - iqs % 8 + iqs % 8 / 4 + 2 * i = v / q2K.group := by
      show _ = v / 16
      omega
    rw [shift_mask 0x03 2 rfl (by omega), and_mask 0x0F 4 rfl (by decide),
      shift_run (rfl : 4 + 4 = 8), quant, group]
    rfl
  · have places : ((List.range 16).flatMap (vecDotQ2K block)).map Prod.fst = q2Places := by
      simp only [vecDotQ2K, q2Places, List.map_flatMap, List.map_map, Function.comp_def]
    exact places ▸ kPlaces_perm.2.2.2.1

lemma q2K_followedBy :
    q2K.FollowedBy 84 readQ2K fun block => (List.range 16).flatMap (vecDotQ2K block) where
  once := kPlaces_perm.1
  decoded := readQ2K_eq
  reference := vecDotQ2K_perm

/-! ## The scales of Q4_K and Q5_K -/

lemma getScaleMinK4_eq (idx : Nat) :
    getScaleMinK4 (bytesFrom block 4) idx =
      (bitsAt block (k4Scale idx), bitsAt block (k4Min idx)) := by
  unfold getScaleMinK4 k4Scale k4Min bytesFrom
  rcases Nat.lt_or_ge idx 4 with low | high
  · have last : 4 + (idx + 4) = 8 + idx := by omega
    rw [if_pos low, if_pos low, if_pos low, and_mask 63 6 rfl (by decide),
      and_mask 63 6 rfl (by decide), last]
  · have last : 4 + (idx + 4) = 8 + idx := by omega
    have first : 4 + (idx - 4) = idx := by omega
    have other := Nat.not_lt.mpr high
    rw [if_neg other, if_neg other, if_neg other, and_mask 0x0F 4 rfl (by decide), last, first,
      shift_run (rfl : 6 + 2 = 8), shift_run (rfl : 4 + 4 = 8), shift_run (rfl : 6 + 2 = 8),
      quant_join, quant_join]

lemma high_pair (b : Byte) : (b.val &&& 0xc0) >>> 2 = (b.val >>> 6) <<< 4 % 256 := by
  revert b
  decide +kernel

lemma auxScales_eq {j i : Nat} (four : j < 4) (two : i < 2) :
    auxScales block j i =
      (bitsAt block (k4Scale (2 * j + i)), bitsAt block (k4Min (2 * j + i))) := by
  rw [← getScaleMinK4_eq]
  unfold auxScales getScaleMinK4 bytesFrom
  dsimp only
  have last : 2 * (j + 2) + i = 2 * j + i + 4 := by omega
  rcases Nat.lt_or_ge j 2 with low | high
  · have low' : 2 * j + i < 4 := by omega
    rw [if_pos low, if_pos low', last]
  · have high' : ¬ 2 * j + i < 4 := by omega
    have first : 2 * (j - 2) + i = 2 * j + i - 4 := by omega
    rw [if_neg (Nat.not_lt.mpr high), if_neg high', last, first, high_pair, high_pair,
      shift_mask 0x0f 4 rfl (by decide), shift_run (rfl : 4 + 4 = 8)]

/-! ## Q4_K -/

lemma readQ4K_eq (block : Nat → Byte) : readQ4K block = q4K.read block := by
  unfold readQ4K KLayout.read
  dsimp only
  rw [f16Bits, f16Bits, leWord_eq, leWord_eq]
  simp only [map_range_append, getScaleMinK4_eq, Nat.reduceAdd]
  rw [flatMap_range 4 (by decide)]
  congr 1
  apply List.map_congr_left
  intro i _
  unfold bytesFrom
  rcases Nat.lt_or_ge (i % 64) 32 with lower | upper
  · have quant : bitRun (16 + (i / 64 * 32 + i % 64)) 0 4 = q4K.quant i := by
      show _ = bitRun _ _ _
      congr 1 <;> omega
    have group : i / 64 * 2 = i / q4K.group := by
      show _ = i / 32
      omega
    rw [if_pos lower, and_mask 0x0F 4 rfl (by decide), quant, group]
    rfl
  · have quant : bitRun (16 + (i / 64 * 32 + (i % 64 - 32))) 4 4 = q4K.quant i := by
      show _ = bitRun _ _ _
      congr 1 <;> omega
    have group : i / 64 * 2 + 1 = i / q4K.group := by
      show _ = i / 32
      omega
    rw [if_neg (Nat.not_lt.mpr upper), shift_run (rfl : 4 + 4 = 8), quant, group]
    rfl

end

section

variable {block : Nat → Byte}

lemma vecDotQ4K_perm (block : Nat → Byte) :
    ((List.range 16).flatMap (vecDotQ4K block)).Perm
      ((List.range 256).map fun i => (i, q4K.value block i)) := by
  apply perm_of_products
  · intro product member
    obtain ⟨half, call, member⟩ := List.mem_flatMap.mp member
    obtain ⟨i, two, member⟩ := List.mem_flatMap.mp member
    obtain ⟨w, two', member⟩ := List.mem_flatMap.mp member
    obtain ⟨j, four, rfl⟩ := List.mem_map.mp member
    rw [List.mem_range] at call two two' four
    dsimp only
    generalize eq : 32 * (2 * (half / 4) + i) + (4 * (half % 4) + (16 * w + j)) = v
    have quant : bitRun (16 + (16 * (2 * (half / 4)) + 4 * (half % 4) + (16 * w + j))) (4 * i) 4 =
        q4K.quant v := by
      show _ = bitRun _ _ _
      congr 1 <;> omega
    have group : 2 * (2 * (half / 4) / 2) + i = v / q4K.group := by
      show _ = v / 32
      omega
    rw [shift_mask 0x0F 4 rfl (by omega), auxScales_eq (by omega) two, quant, group]
    rfl
  · have places : ((List.range 16).flatMap (vecDotQ4K block)).map Prod.fst = wordPlaces := by
      simp only [vecDotQ4K, wordPlaces, List.map_flatMap, List.map_map, Function.comp_def]
    exact places ▸ kPlaces_perm.2.2.2.2

lemma q4K_followedBy :
    q4K.FollowedBy 144 readQ4K fun block => (List.range 16).flatMap (vecDotQ4K block) where
  once := kPlaces_perm.2.1
  decoded := readQ4K_eq
  reference := vecDotQ4K_perm

/-! ## Q5_K -/

lemma readQ5Pairs_range (n k : Nat) :
    readQ5Pairs block (List.range' k n) (1 <<< (2 * k)) (2 <<< (2 * k)) =
      (List.range' k n).flatMap fun pair =>
        readQ5Pair block pair (1 <<< (2 * pair)) (2 <<< (2 * pair)) := by
  induction n generalizing k with
  | zero => rfl
  | succ n ih =>
    rw [List.range'_succ, readQ5Pairs, List.flatMap_cons, ← Nat.shiftLeft_add,
      ← Nat.shiftLeft_add, ← Nat.mul_succ, ih]

lemma flag_join (byte shift byte' : Nat) {k : Nat} (inside : k < 8) :
    bitsAt block (bitRun byte shift 4) + (if (block byte').val &&& 1 <<< k ≠ 0 then 16 else 0) =
      bitsAt block (bitRun byte shift 4 ++ bitRun byte' k 1) := by
  have small : bitsAt block (bitRun byte shift 4) < 2 ^ _ := bitsAt_lt _
  rw [length_run] at small
  rw [bitsAt_append, length_run, Nat.or_comm, ← Nat.shiftLeft_add_eq_or_of_lt small, Nat.add_comm,
    ← shift_mask 1 1 rfl inside, Nat.one_shiftLeft, Nat.and_two_pow, Nat.and_one_is_mod,
    Nat.shiftRight_eq_div_pow, ← Nat.toNat_testBit]
  congr 1
  cases (block byte').val.testBit k with
  | false => rw [Bool.toNat_false, Nat.zero_mul, if_neg (not_not.mpr rfl), Nat.zero_shiftLeft]
  | true =>
    rw [Bool.toNat_true, Nat.one_mul, if_pos (Nat.two_pow_pos k).ne']
    rfl

lemma readQ5K_eq (block : Nat → Byte) : readQ5K block = q5K.read block := by
  have loop : readQ5Pairs block (List.range' 0 4) 1 2 = _ := readQ5Pairs_range 4 0
  unfold readQ5K KLayout.read
  rw [f16Bits, f16Bits, leWord_eq, leWord_eq, List.range_eq_range', loop, ← List.range_eq_range']
  unfold readQ5Pair
  simp only [map_range_append, getScaleMinK4_eq, Nat.reduceAdd]
  rw [flatMap_range 4 (by decide)]
  congr 1
  apply List.map_congr_left
  intro i inside
  have below := List.mem_range.mp inside
  unfold bytesFrom
  rcases Nat.lt_or_ge (i % 64) 32 with lower | upper
  · have quant : bitRun (48 + (i / 64 * 32 + i % 64)) 0 4 ++ bitRun (16 + i % 64) (2 * (i / 64)) 1 =
        q5K.quant i := by
      show _ = bitRun _ _ _ ++ bitRun _ _ _
      congr 2 <;> omega
    have group : i / 64 * 2 = i / q5K.group := by
      show _ = i / 32
      omega
    rw [if_pos lower, and_mask 0x0F 4 rfl (by decide), flag_join _ _ _ (by omega), quant, group]
    rfl
  · have next : 2 <<< (2 * (i / 64)) = 1 <<< (2 * (i / 64) + 1) := by
      rw [Nat.add_comm, Nat.shiftLeft_add]
      rfl
    have quant : bitRun (48 + (i / 64 * 32 + (i % 64 - 32))) 4 4 ++
        bitRun (16 + (i % 64 - 32)) (2 * (i / 64) + 1) 1 = q5K.quant i := by
      show _ = bitRun _ _ _ ++ bitRun _ _ _
      congr 2 <;> omega
    have group : i / 64 * 2 + 1 = i / q5K.group := by
      show _ = i / 32
      omega
    rw [if_neg (Nat.not_lt.mpr upper), shift_run (rfl : 4 + 4 = 8), next,
      flag_join _ _ _ (by omega), quant, group]
    rfl

lemma flag_mask (byte shift shift' : Nat) (fits : shift + shift' + 1 ≤ 8) :
    ((block byte).val >>> shift >>> shift') <<< 4 &&& 0x10 =
      bitsAt block (bitRun byte (shift + shift') 1) <<< 4 := by
  rw [← shift_mask 1 1 rfl fits, Nat.shiftLeft_and_distrib, Nat.shiftRight_add]
  rfl

lemma vecDotQ5K_perm (block : Nat → Byte) :
    ((List.range 16).flatMap (vecDotQ5K block)).Perm
      ((List.range 256).map fun i => (i, q5K.value block i)) := by
  apply perm_of_products
  · intro product member
    obtain ⟨half, call, member⟩ := List.mem_flatMap.mp member
    obtain ⟨i, two, member⟩ := List.mem_flatMap.mp member
    obtain ⟨w, two', member⟩ := List.mem_flatMap.mp member
    obtain ⟨j, four, rfl⟩ := List.mem_map.mp member
    rw [List.mem_range] at call two two' four
    dsimp only
    generalize eq : 32 * (2 * (half / 4) + i) + (4 * (half % 4) + (16 * w + j)) = v
    have quant : bitRun (48 + (16 * (2 * (half / 4)) + 4 * (half % 4) + (16 * w + j))) (4 * i) 4 ++
        bitRun (16 + (4 * (half % 4) + (16 * w + j))) (2 * (half / 4) + i) 1 = q5K.quant v := by
      show _ = bitRun _ _ _ ++ bitRun _ _ _
      congr 2 <;> omega
    have group : 2 * (2 * (half / 4) / 2) + i = v / q5K.group := by
      show _ = v / 32
      omega
    rw [shift_mask 0x0F 4 rfl (by omega), flag_mask _ _ _ (by omega), auxScales_eq (by omega) two,
      group]
    rw [KLayout.value, ← quant, bitsAt_append, length_run]
    rfl
  · have places : ((List.range 16).flatMap (vecDotQ5K block)).map Prod.fst = wordPlaces := by
      simp only [vecDotQ5K, wordPlaces, List.map_flatMap, List.map_map, Function.comp_def]
    exact places ▸ kPlaces_perm.2.2.2.2

lemma q5K_followedBy :
    q5K.FollowedBy 176 readQ5K fun block => (List.range 16).flatMap (vecDotQ5K block) where
  once := kPlaces_perm.2.2.1
  decoded := readQ5K_eq
  reference := vecDotQ5K_perm

end

end PocketMoE.Loader.Python
