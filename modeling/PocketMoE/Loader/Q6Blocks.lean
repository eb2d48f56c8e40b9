import PocketMoE.Lib.BitField

/-!
# Decoding Q6_K

Model of `_read_q6_k_rows` of `tensor_reader.py` for one block, up to the product of its numbers,
and of the layout of `block_q6_K`, as `vec_dot_q6_K_q8_1` reads it.

The layout has the values in halves of 128, and in a half four runs of 32 share 32 bytes of two-bit
fields. The decoder reads 8 bytes of `ql` and 4 bytes of `qh` for 16 values. So it has the values of
the layout only in blocks that hold the same bits at both places, and it never reads the upper
halves of the bytes of `qh` (`q6K_decoded_iff`).
-/

namespace PocketMoE.Loader.Python
open PocketMoE.Lib

/-- The bytes of a block from one on. -/
def bytesFrom (block : Nat → Byte) (start : Nat) : Nat → Byte := fun i => block (start + i)

/-- The bits that `_f16_bytes_to_f32` converts. -/
def f16Bits (block : Nat → Byte) (start : Nat) : Nat := leWord block start 2

/-- A byte as an int8. -/
def asInt8 (raw : Nat) : Int := if raw < 128 then raw else raw - 256

/-- What a value is decoded from, next to the scale of the block. -/
structure Q6Value where
  scale : Int
  quant : Int
deriving DecidableEq

/-- What a block is decoded from: the values are `d * scale * quant`. -/
structure Q6Block where
  d : Nat
  values : List Q6Value
deriving DecidableEq

/-- The loop of `_read_q6_k_rows`. -/
def readQ6K (block : Nat → Byte) : Q6Block :=
  let ql := bytesFrom block 0
  let qh := bytesFrom block 128
  let scales := bytesFrom block 192
  let d := f16Bits block 208
  let values := (List.range 16).flatMap fun group =>
    let qlPart (t : Nat) := (ql (group * 8 + t)).val
    let qhPart (t : Nat) := (qh (group * 4 + t)).val
    let low (t : Nat) := if group % 2 = 0 then qlPart t &&& 0x0F else qlPart t >>> 4
    let highLo (t : Nat) := qhPart t &&& 0x03
    let highHi (t : Nat) := qhPart t >>> 2 &&& 0x03
    let high (t : Nat) := if t < 4 then highLo t else highHi (t - 4)
    let q (t : Nat) : Int := ((low t ||| (high t <<< 4) % 256 : Nat) : Int) - 32
    let low2 (t : Nat) := if group % 2 = 0 then qlPart t >>> 4 else qlPart t &&& 0x0F
    let q2 (t : Nat) : Int := ((low2 t ||| (high t <<< 4) % 256 : Nat) : Int) - 32
    ((List.range 8).map fun t => ⟨asInt8 (scales group).val, q t⟩) ++
      (List.range 8).map fun t => ⟨asInt8 (scales group).val, q2 t⟩
  ⟨d, values⟩

/-! ## The layout -/

/-- The four low bits of a value: `ql` has 64 bytes for a half, with the values 64 apart in the
halves of a byte. -/
def q6Low (i : Nat) : List Nat := bitRun (64 * (i / 128) + i % 64) (4 * (i % 128 / 64)) 4

/-- The two high bits of a value: `qh` has 32 bytes for a half, with values 32 apart in a byte. -/
def q6High (i : Nat) : List Nat := bitRun (128 + 32 * (i / 128) + i % 32) (2 * (i % 128 / 32)) 2

/-- The scale of 16 values. -/
def q6Scale (s : Nat) : List Nat := bitRun (192 + s) 0 8

/-- The scale of the block. -/
def q6D : List Nat := bitRun 208 0 16

/-- All fields. -/
def q6Fields : List (List Nat) :=
  q6D :: (List.range 16).map q6Scale ++ (List.range 256).map fun i => q6Low i ++ q6High i

/-- The value whose bits are at some places. -/
def q6ValueAt (low high : Nat → List Nat) (block : Nat → Byte) (i : Nat) : Q6Value where
  scale := asInt8 (bitsAt block (q6Scale (i / 16)))
  quant := (bitsAt block (low i ++ high i) : Int) - 32

/-- The block whose values have their bits at some places. -/
def q6BlockAt (low high : Nat → List Nat) (block : Nat → Byte) : Q6Block where
  d := bitsAt block q6D
  values := (List.range 256).map (q6ValueAt low high block)

/-- The products of one call of `vec_dot_q6_K_q8_1`: which value of the other vector meets what. The
four bytes of a word are decoded at once, and the masks keep their bits apart. -/
def vecDotQ6K (block : Nat → Byte) (iqs : Nat) : List (Nat × Q6Value) :=
  let bq8Offset := 4 * (iqs / 16) + iqs % 16 / 8
  let scaleOffset := 8 * (iqs / 16) + iqs % 16 / 4
  let vhShift := 2 * (iqs % 16 / 8)
  let vl (j : Nat) := (block (4 * iqs + j)).val
  let vh (j : Nat) := (block (128 + (4 * (8 * (iqs / 16) + iqs % 8) + j))).val >>> vhShift
  (List.range 2).flatMap fun i => (List.range 4).map fun j =>
    let vil := vl j >>> (4 * i) &&& 0x0F
    let vih := (vh j >>> (4 * i)) <<< 4 &&& 0x30
    (32 * (bq8Offset + 2 * i) + (4 * (iqs % 8) + j),
      ⟨asInt8 (block (192 + (scaleOffset + 4 * i))).val, ((vil ||| vih : Nat) : Int) - 32⟩)

/-! ## Where the decoder reads -/

/-- Where the decoder reads the four low bits of a value. -/
def q6LowRead (i : Nat) : List Nat :=
  bitRun (8 * (i / 16) + i % 8) (4 * ((i / 16 + i % 16 / 8) % 2)) 4

/-- Where the decoder reads the two high bits of a value. -/
def q6HighRead (i : Nat) : List Nat := bitRun (128 + 4 * (i / 16) + i % 4) (2 * (i % 8 / 4)) 2

/-- One value alone has a bit among its own. -/
def ForOne (places : Nat → List Nat) (p : Nat) : Prop := ∃! i, i < 256 ∧ p ∈ places i

section

variable {block : Nat → Byte}

lemma quant_join (byte shift byte' shift' : Nat) :
    bitsAt block (bitRun byte shift 4) ||| (bitsAt block (bitRun byte' shift' 2) <<< 4) % 256 =
      bitsAt block (bitRun byte shift 4 ++ bitRun byte' shift' 2) := by
  have small : bitsAt block (bitRun byte' shift' 2) < 2 ^ _ := bitsAt_lt _
  rw [length_run] at small
  rw [bitsAt_append, length_run, Nat.mod_eq_of_lt]
  rw [Nat.shiftLeft_eq]
  omega

end

section

variable {block : Nat → Byte}

lemma nibble_first (group byte : Nat) :
    (if group % 2 = 0 then (block byte).val &&& 0x0F else (block byte).val >>> 4) =
      bitsAt block (bitRun byte (4 * (group % 2)) 4) := by
  rcases Nat.mod_two_eq_zero_or_one group with even | odd
  · rw [if_pos even, even]
    exact and_mask 0x0F 4 rfl (by decide)
  · rw [if_neg (by omega), odd]
    exact shift_run rfl

lemma nibble_second (group byte : Nat) :
    (if group % 2 = 0 then (block byte).val >>> 4 else (block byte).val &&& 0x0F) =
      bitsAt block (bitRun byte (4 * ((group + 1) % 2)) 4) := by
  rcases Nat.mod_two_eq_zero_or_one group with even | odd
  · rw [if_pos even, show (group + 1) % 2 = 1 by omega]
    exact shift_run rfl
  · rw [if_neg (by omega), show (group + 1) % 2 = 0 by omega]
    exact and_mask 0x0F 4 rfl (by decide)

lemma pair_high (start byte t : Nat) (small : t < 8) :
    (if t < 4 then (block (start + (byte + t))).val &&& 0x03
      else (block (start + (byte + (t - 4)))).val >>> 2 &&& 0x03) =
      bitsAt block (bitRun (start + (byte + t % 4)) (2 * (t / 4)) 2) := by
  rcases Nat.lt_or_ge t 4 with low | high
  · rw [if_pos low, Nat.mod_eq_of_lt low, Nat.div_eq_of_lt low]
    exact and_mask 0x03 2 rfl (by decide)
  · rw [if_neg (Nat.not_lt.mpr high), show t / 4 = 1 by omega, show t % 4 = t - 4 by omega]
    exact shift_mask 0x03 2 rfl (by decide)

lemma readQ6K_eq (block : Nat → Byte) : readQ6K block = q6BlockAt q6LowRead q6HighRead block := by
  unfold readQ6K q6BlockAt
  dsimp only
  rw [f16Bits, leWord_eq]
  congr 1
  simp only [map_range_append, bytesFrom, Nat.reduceAdd]
  rw [flatMap_range 16 (by decide)]
  apply List.map_congr_left
  intro i inside
  have below := List.mem_range.mp inside
  rw [q6ValueAt, Nat.zero_add, q6Scale, ← whole_byte]
  rcases Nat.lt_or_ge (i % 16) 8 with first | second
  · have low : bitRun (i / 16 * 8 + i % 16) (4 * (i / 16 % 2)) 4 = q6LowRead i := by
      unfold q6LowRead
      congr 1 <;> omega
    have high : bitRun (128 + (i / 16 * 4 + i % 16 % 4)) (2 * (i % 16 / 4)) 2 = q6HighRead i := by
      unfold q6HighRead
      congr 1 <;> omega
    rw [if_pos first, pair_high _ _ _ first, nibble_first, quant_join, low, high]
  · have low : bitRun (0 + (i / 16 * 8 + (i % 16 - 8))) (4 * ((i / 16 + 1) % 2)) 4 =
        q6LowRead i := by
      unfold q6LowRead
      congr 1 <;> omega
    have high : bitRun (128 + (i / 16 * 4 + (i % 16 - 8) % 4)) (2 * ((i % 16 - 8) / 4)) 2 =
        q6HighRead i := by
      unfold q6HighRead
      congr 1 <;> omega
    have small : i % 16 - 8 < 8 := by omega
    rw [if_neg (Nat.not_lt.mpr second), pair_high _ _ _ small, nibble_second, quant_join, low, high]

end

/-! ## The decoder and the layout -/

section

variable {block : Nat → Byte}

lemma quant_inj {low low' high high' : List Nat} (four : low.length = 4) (four' : low'.length = 4) :
    bitsAt block (low ++ high) = bitsAt block (low' ++ high') ↔
      bitsAt block low = bitsAt block low' ∧ bitsAt block high = bitsAt block high' := by
  have small : bitsAt block low < 2 ^ _ := bitsAt_lt low
  have small' : bitsAt block low' < 2 ^ _ := bitsAt_lt low'
  rw [four] at small
  rw [four'] at small'
  rw [bitsAt_append, bitsAt_append, four, four', Nat.or_comm,
    ← Nat.shiftLeft_add_eq_or_of_lt small, Nat.or_comm, ← Nat.shiftLeft_add_eq_or_of_lt small',
    Nat.shiftLeft_eq, Nat.shiftLeft_eq]
  omega

lemma q6BlockAt_inj {low low' high high' : Nat → List Nat} (four : ∀ i, (low i).length = 4)
    (four' : ∀ i, (low' i).length = 4) :
    q6BlockAt low high block = q6BlockAt low' high' block ↔
      ∀ i < 256, bitsAt block (low i) = bitsAt block (low' i) ∧
        bitsAt block (high i) = bitsAt block (high' i) := by
  have value (i : Nat) : q6ValueAt low high block i = q6ValueAt low' high' block i ↔
      bitsAt block (low i) = bitsAt block (low' i) ∧
        bitsAt block (high i) = bitsAt block (high' i) := by
    rw [q6ValueAt, q6ValueAt, Q6Value.mk.injEq, eq_self, true_and, sub_left_inj, Int.natCast_inj,
      quant_inj (four i) (four' i)]
  rw [q6BlockAt, q6BlockAt, Q6Block.mk.injEq, eq_self, true_and, List.map_inj_left]
  simp only [List.mem_range, value]

lemma pair_mask (byte shift shift' : Nat) (fits : shift + shift' + 2 ≤ 8) :
    ((block byte).val >>> shift >>> shift') <<< 4 &&& 0x30 =
      bitsAt block (bitRun byte (shift + shift') 2) <<< 4 := by
  rw [← shift_mask 0x03 2 rfl fits, Nat.shiftLeft_and_distrib, Nat.shiftRight_add]
  rfl

lemma vecDotQ6K_perm (block : Nat → Byte) :
    ((List.range 32).flatMap (vecDotQ6K block)).Perm
      ((List.range 256).map fun i => (i, q6ValueAt q6Low q6High block i)) := by
  apply perm_of_products
  · intro product member
    obtain ⟨iqs, call, member⟩ := List.mem_flatMap.mp member
    obtain ⟨i, two, member⟩ := List.mem_flatMap.mp member
    obtain ⟨j, four, rfl⟩ := List.mem_map.mp member
    rw [List.mem_range] at call two four
    dsimp only
    generalize eq : 32 * (4 * (iqs / 16) + iqs % 16 / 8 + 2 * i) + (4 * (iqs % 8) + j) = v
    have scale : 192 + (8 * (iqs / 16) + iqs % 16 / 4 + 4 * i) = 192 + v / 16 := by omega
    have low : bitRun (4 * iqs + j) (4 * i) 4 = q6Low v := by
      unfold q6Low
      congr 1 <;> omega
    have high : bitRun (128 + (4 * (8 * (iqs / 16) + iqs % 8) + j)) (2 * (iqs % 16 / 8) + 4 * i) 2 =
        q6High v := by
      unfold q6High
      congr 1 <;> omega
    have width : 4 = (q6Low v).length := (length_run ..).symm
    rw [q6ValueAt, q6Scale, ← whole_byte, scale, bitsAt_append, ← width,
      shift_mask 0x0F 4 rfl (by omega),
      pair_mask _ _ _ (by omega), low, high]
  · have places : ((List.range 32).flatMap (vecDotQ6K block)).map Prod.fst =
        (List.range 32).flatMap fun iqs => (List.range 2).flatMap fun i =>
          (List.range 4).map fun j =>
            32 * (4 * (iqs / 16) + iqs % 16 / 8 + 2 * i) + (4 * (iqs % 8) + j) := by
      simp only [vecDotQ6K, List.map_flatMap, List.map_map, Function.comp_def]
    rw [places]
    apply perm_range_of_mask
    · decide +kernel
    · decide +kernel

lemma q6Fields_usedOnce : UsedOnce (8 * 210) q6Fields := by
  apply perm_range_of_mask
  · decide +kernel
  · decide +kernel

end

/-! ## Which values have a bit -/

lemma exists_place {i : Nat} (inside : i < 256) :
    ∃ group < 16, ∃ half < 2, ∃ t < 8, i = 16 * group + 8 * half + t :=
  ⟨i / 16, by omega, i % 16 / 8, by omega, i % 8, by omega, by omega⟩

lemma q6LowRead_eq {half t : Nat} (group : Nat) (two : half < 2) (eight : t < 8) :
    q6LowRead (16 * group + 8 * half + t) =
      bitRun (8 * group + t) (4 * ((group + half) % 2)) 4 := by
  have here : (16 * group + 8 * half + t) / 16 = group := by omega
  have second : (16 * group + 8 * half + t) % 16 / 8 = half := by omega
  have column : (16 * group + 8 * half + t) % 8 = t := by omega
  rw [q6LowRead, here, second, column]

lemma q6HighRead_eq {half t : Nat} (group : Nat) (two : half < 2) (eight : t < 8) :
    q6HighRead (16 * group + 8 * half + t) = bitRun (128 + 4 * group + t % 4) (2 * (t / 4)) 2 := by
  have here : (16 * group + 8 * half + t) / 16 = group := by omega
  have byte : (16 * group + 8 * half + t) % 4 = t % 4 := by omega
  have column : (16 * group + 8 * half + t) % 8 = t := by omega
  rw [q6HighRead, here, byte, column]

/-- The decoder reads every bit of `ql` for one value, and none of `qh`: the lower halves of its
bytes are read twice and the upper ones never. -/
lemma forOne_read_iff {p : Nat} :
    ForOne (fun i => q6LowRead i ++ q6HighRead i) p ↔ p < 8 * 128 := by
  constructor
  · rintro ⟨i, ⟨inside, here⟩, unique⟩
    obtain ⟨group, sixteen, half, two, t, eight, rfl⟩ := exists_place inside
    rcases List.mem_append.mp here with low | high
    · rw [q6LowRead_eq group two eight, mem_run] at low
      omega
    · -- The value eight places away shares the two bits.
      have two' : 1 - half < 2 := by omega
      have shared : p ∈ q6HighRead (16 * group + 8 * (1 - half) + t) := by
        rw [q6HighRead_eq group two' eight, ← q6HighRead_eq group two eight]
        exact high
      have other := unique _ ⟨by omega, List.mem_append_right _ shared⟩
      omega
  · intro low
    have two : (p / 4 + p / 64) % 2 < 2 := Nat.mod_lt _ Nat.two_pos
    have eight : p / 8 % 8 < 8 := Nat.mod_lt _ (by decide)
    refine ⟨16 * (p / 64) + 8 * ((p / 4 + p / 64) % 2) + p / 8 % 8, ⟨by omega, ?_⟩, ?_⟩
    · apply List.mem_append_left
      rw [q6LowRead_eq _ two eight, mem_run]
      omega
    · rintro i ⟨inside, here⟩
      obtain ⟨group, sixteen, half, two', t, eight', rfl⟩ := exists_place inside
      rcases List.mem_append.mp here with here | here
      · rw [q6LowRead_eq group two' eight', mem_run] at here
        have groups : p / 64 = group := by omega
        have column : p / 8 % 8 = t := by omega
        omega
      · rw [q6HighRead_eq group two' eight', mem_run] at here
        omega

/-- The decoder has the layout's values if and only if the block holds the same bits where it reads
them. The layout has each bit in one field, the decoder has each bit of `ql` in one value, but none
of `qh`. -/
theorem q6K_decoded_iff (block : Nat → Byte) :
    ((List.range 32).flatMap (vecDotQ6K block)).Perm
        ((List.range 256).map fun i => (i, q6ValueAt q6Low q6High block i)) ∧
      UsedOnce (8 * 210) q6Fields ∧
      readQ6K block = q6BlockAt q6LowRead q6HighRead block ∧
      (readQ6K block = q6BlockAt q6Low q6High block ↔
        ∀ i < 256, bitsAt block (q6LowRead i) = bitsAt block (q6Low i) ∧
          bitsAt block (q6HighRead i) = bitsAt block (q6High i)) ∧
      ∀ p, ForOne (fun i => q6LowRead i ++ q6HighRead i) p ↔ p < 8 * 128 := by
  refine ⟨vecDotQ6K_perm block, q6Fields_usedOnce, readQ6K_eq block, ?_, fun _ => forOne_read_iff⟩
  rw [readQ6K_eq]
  exact q6BlockAt_inj (fun _ => length_run ..) (fun _ => length_run ..)

/-- Two bits of the value 64 that the decoder reads for none. -/
theorem q6K_upper_lost :
    let block : Nat → Byte := fun i => if i = 128 then 0x30 else 0
    readQ6K block ≠ q6BlockAt q6Low q6High block := by
  decide +kernel

end PocketMoE.Loader.Python
