import Mathlib.Data.List.Perm.Subperm
import Mathlib.Data.Nat.Bitwise
import PocketMoE.Lib.Bytes

/-!
# Bit fields

A block of bytes holds fields of some bits each. A field is given by the places of its bits, which
are numbered through the block from the lowest bit of the first byte. Masks and shifts of bytes read
runs of bits (`shift_mask`, `word_mask`), an `or` with a shift joins two fields (`bitsAt_append`), and
the fields use every bit once if the places are all numbers below the number of bits in some order
(`UsedOnce`).
-/

namespace PocketMoE.Lib

/-- A bit of a block. -/
def bitOf (block : Nat → Byte) (p : Nat) : Bool := (block (p / 8)).val.testBit (p % 8)

/-- The number whose bits are at some places. -/
def bitsAt (block : Nat → Byte) : List Nat → Nat
  | [] => 0
  | p :: places => Nat.bit (bitOf block p) (bitsAt block places)

/-- Some bits of a byte. -/
def bitRun (byte shift width : Nat) : List Nat := (List.range width).map (8 * byte + shift + ·)

/-- A word of some bytes, the lowest first. -/
def leWord (block : Nat → Byte) (start : Nat) : Nat → Nat
  | 0 => 0
  | n + 1 => (block start).val ||| leWord block (start + 1) n <<< 8

/-- Every bit is in one field, once. -/
def UsedOnce (n : Nat) (fields : List (List Nat)) : Prop := fields.flatten.Perm (List.range n)

variable {block : Nat → Byte}

/-! ## Fields of bytes -/

lemma testBit_bitsAt (places : List Nat) (k : Nat) :
    (bitsAt block places).testBit k = places[k]?.any (bitOf block) := by
  induction places generalizing k with
  | nil => rw [bitsAt, Nat.zero_testBit, List.getElem?_nil, Option.any_none]
  | cons p places ih =>
    cases k with
    | zero => rw [bitsAt, Nat.testBit_bit_zero, List.getElem?_cons_zero, Option.any_some]
    | succ k => rw [bitsAt, Nat.testBit_bit_succ, ih, List.getElem?_cons_succ]

lemma bitsAt_append (low high : List Nat) :
    bitsAt block (low ++ high) = bitsAt block low ||| bitsAt block high <<< low.length := by
  apply Nat.eq_of_testBit_eq
  intro k
  rw [Nat.testBit_or, Nat.testBit_shiftLeft, testBit_bitsAt, testBit_bitsAt, testBit_bitsAt]
  rcases Nat.lt_or_ge k low.length with inLow | inHigh
  · rw [List.getElem?_append_left inLow, decide_eq_false (Nat.not_le.mpr inLow), Bool.false_and,
      Bool.or_false]
  · rw [List.getElem?_append_right inHigh, List.getElem?_eq_none inHigh, decide_eq_true inHigh,
      Option.any_none, Bool.false_or, Bool.true_and]

lemma bitsAt_lt (places : List Nat) : bitsAt block places < 2 ^ places.length := by
  apply Nat.lt_pow_two_of_testBit
  intro k inHigh
  rw [testBit_bitsAt, List.getElem?_eq_none inHigh, Option.any_none]

@[simp] lemma length_run (byte shift width : Nat) : (bitRun byte shift width).length = width := by
  rw [bitRun, List.length_map, List.length_range]

lemma mem_run {byte shift width p : Nat} :
    p ∈ bitRun byte shift width ↔ 8 * byte + shift ≤ p ∧ p < 8 * byte + shift + width := by
  rw [bitRun, List.mem_map]
  constructor
  · rintro ⟨t, inside, rfl⟩
    have below := List.mem_range.mp inside
    omega
  · rintro ⟨low, high⟩
    exact ⟨p - (8 * byte + shift), List.mem_range.mpr (by omega), by omega⟩

lemma testBit_run (byte shift width k : Nat) :
    (bitsAt block (bitRun byte shift width)).testBit k =
      (decide (k < width) && bitOf block (8 * byte + shift + k)) := by
  rw [testBit_bitsAt, bitRun, List.getElem?_map]
  rcases Nat.lt_or_ge k width with inside | outside
  · rw [List.getElem?_range inside, decide_eq_true inside, Option.map_some, Option.any_some,
      Bool.true_and]
  · rw [List.getElem?_eq_none (List.length_range.trans_le outside),
      decide_eq_false (Nat.not_lt.mpr outside)]
    rfl

lemma whole_byte (byte : Nat) : (block byte).val = bitsAt block (bitRun byte 0 8) := by
  apply Nat.eq_of_testBit_eq
  intro k
  rw [testBit_run]
  rcases Nat.lt_or_ge k 8 with inside | outside
  · have place : (8 * byte + 0 + k) / 8 = byte := by omega
    have bit : (8 * byte + 0 + k) % 8 = k := by omega
    rw [decide_eq_true inside, Bool.true_and, bitOf, place, bit]
  · rw [decide_eq_false (Nat.not_lt.mpr outside), Bool.false_and]
    apply Nat.testBit_lt_two_pow
    exact Nat.lt_of_lt_of_le (block byte).isLt (Nat.pow_le_pow_right Nat.two_pos outside)

lemma run_append (byte width width' : Nat) :
    bitRun byte 0 (8 * width) ++ bitRun (byte + width) 0 width' =
      bitRun byte 0 (8 * width + width') := by
  unfold bitRun
  rw [List.range_add, List.map_append, List.map_map]
  congr 1
  apply List.map_congr_left
  intro t _
  rw [Function.comp_apply]
  omega

lemma leWord_eq (start n : Nat) : leWord block start n = bitsAt block (bitRun start 0 (8 * n)) := by
  induction n generalizing start with
  | zero => rfl
  | succ n ih =>
    have split := run_append start 1 (8 * n)
    rw [leWord, ih, whole_byte, Nat.mul_succ, Nat.add_comm (8 * n), ← split, bitsAt_append,
      length_run]

lemma word_mask (mask width : Nat) {byte shift size : Nat} (ones : mask = 2 ^ width - 1)
    (fits : shift + width ≤ size) :
    bitsAt block (bitRun byte 0 size) >>> shift &&& mask =
      bitsAt block (bitRun byte shift width) := by
  apply Nat.eq_of_testBit_eq
  intro k
  rw [ones, Nat.testBit_and, Nat.testBit_two_pow_sub_one, Nat.testBit_shiftRight, testBit_run,
    testBit_run, Nat.add_assoc, Nat.add_assoc, Nat.zero_add]
  rcases Nat.lt_or_ge k width with inside | outside
  · rw [decide_eq_true (by omega : shift + k < size), Bool.true_and, Bool.and_comm]
  · rw [decide_eq_false (Nat.not_lt.mpr outside), Bool.and_false, Bool.false_and]

lemma word_shift {byte shift width size : Nat} (rest : shift + width = size) :
    bitsAt block (bitRun byte 0 size) >>> shift = bitsAt block (bitRun byte shift width) := by
  have small : bitsAt block (bitRun byte 0 size) < 2 ^ _ := bitsAt_lt _
  rw [length_run] at small
  rw [← word_mask _ width rfl rest.le, Nat.and_two_pow_sub_one_eq_mod, Nat.mod_eq_of_lt]
  rw [Nat.shiftRight_eq_div_pow]
  apply Nat.div_lt_of_lt_mul
  rwa [← Nat.pow_add, rest]

lemma and_mask (mask width : Nat) {byte : Nat} (ones : mask = 2 ^ width - 1) (fits : width ≤ 8) :
    (block byte).val &&& mask = bitsAt block (bitRun byte 0 width) := by
  rw [whole_byte, ← word_mask mask width ones (Nat.zero_add width ▸ fits), Nat.shiftRight_zero]

lemma shift_mask (mask width : Nat) {byte shift : Nat} (ones : mask = 2 ^ width - 1)
    (fits : shift + width ≤ 8) :
    (block byte).val >>> shift &&& mask = bitsAt block (bitRun byte shift width) := by
  rw [whole_byte, word_mask mask width ones fits]

lemma shift_run {byte shift width : Nat} (rest : shift + width = 8) :
    (block byte).val >>> shift = bitsAt block (bitRun byte shift width) := by
  rw [whole_byte, word_shift rest]

/-! ## Fields that use every bit -/

lemma testBit_mask (places : List Nat) (p : Nat) :
    (places.foldr (fun q mask => 1 <<< q ||| mask) 0).testBit p = decide (p ∈ places) := by
  induction places with
  | nil => rw [List.foldr_nil, Nat.zero_testBit, decide_eq_false (List.not_mem_nil)]
  | cons q places ih =>
    rw [List.foldr_cons, Nat.testBit_or, ih, Nat.one_shiftLeft, Nat.testBit_two_pow,
      ← Bool.decide_or]
    exact decide_eq_decide.mpr ((or_congr_left eq_comm).trans List.mem_cons.symm)

lemma perm_range_of_mask {n : Nat} {places : List Nat} (length : places.length = n)
    (mask : places.foldr (fun q mask => 1 <<< q ||| mask) 0 = 2 ^ n - 1) :
    places.Perm (List.range n) := by
  have all : List.range n ⊆ places := by
    intro p member
    rw [← decide_eq_true_iff (p := p ∈ places), ← testBit_mask, mask, Nat.testBit_two_pow_sub_one,
      decide_eq_true (List.mem_range.mp member)]
  apply List.Perm.symm
  exact (List.nodup_range.subperm all).perm_of_length_le (length.trans_le List.length_range.ge)

/-! ## Loops over the values of a block -/

lemma flatMap_range {α : Type*} (n : Nat) {width : Nat} (pos : 0 < width) (f : Nat → Nat → α) :
    ((List.range n).flatMap fun g => (List.range width).map (f g)) =
      (List.range (n * width)).map fun i => f (i / width) (i % width) := by
  induction n with
  | zero => rw [Nat.zero_mul, List.range_zero, List.flatMap_nil, List.map_nil]
  | succ n ih =>
    rw [List.range_succ, List.flatMap_append, ih, List.flatMap_singleton, Nat.succ_mul,
      List.range_add, List.map_append, List.map_map]
    congr 1
    apply List.map_congr_left
    intro t inside
    have below := List.mem_range.mp inside
    rw [Function.comp_apply, Nat.mul_comm n, Nat.mul_add_div pos, Nat.mul_add_mod,
      Nat.div_eq_of_lt below, Nat.mod_eq_of_lt below, Nat.add_zero]

lemma map_range_append {α : Type*} (n m : Nat) (f g : Nat → α) :
    (List.range n).map f ++ (List.range m).map g =
      (List.range (n + m)).map fun t => if t < n then f t else g (t - n) := by
  rw [List.range_add, List.map_append, List.map_map]
  congr 1
  · apply List.map_congr_left
    intro t inside
    rw [if_pos (List.mem_range.mp inside)]
  · apply List.map_congr_left
    intro t _
    rw [Function.comp_apply, if_neg (Nat.not_lt.mpr (Nat.le_add_right n t)),
      Nat.add_sub_cancel_left]

/-! ## Products with the values of a block -/

lemma perm_of_products {α : Type*} {n : Nat} {products : List (Nat × α)} {value : Nat → α}
    (same : ∀ product ∈ products, product.2 = value product.1)
    (all : (products.map Prod.fst).Perm (List.range n)) :
    products.Perm ((List.range n).map fun i => (i, value i)) := by
  have values : products = (products.map Prod.fst).map fun i => (i, value i) := by
    rw [List.map_map]
    refine (List.map_id products).symm.trans (List.map_congr_left fun product member => ?_)
    exact Prod.ext rfl (same product member)
  rw [values]
  exact all.map _

end PocketMoE.Lib
