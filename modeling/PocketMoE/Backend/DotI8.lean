import Mathlib.Algebra.BigOperators.Intervals
import Mathlib.Algebra.BigOperators.Ring.Finset
import Mathlib.Algebra.Order.BigOperators.Group.Finset
import Mathlib.Tactic.Linarith
import PocketMoE.Backend.Int8Kernels
import PocketMoE.Lib.Word

/-!
# The AVX2 dot products

Model of `dot_i8_avx2`, `dot_i8_avx2_pair` and `dot_i8_avx2_4` (`deepseek_cpu_moe_ext.cpp`), lane by
lane: a vector is its lanes, an operation on vectors the operation on the words in them. Words
remember an overflow, of a lane or of the scalar sums.
-/

namespace PocketMoE.Backend.DotI8

open PocketMoE.Lib PocketMoE.Lib.Word

/-- The lanes of a vector of words. -/
abbrev Lanes := ℕ → Word

/-- `_mm256_cvtepi8_epi16` of the 16 bytes from `i` on. -/
def cvtepi8Epi16 (p : ℕ → BitVec 8) (i : ℕ) : Lanes := fun k => exact (p (i + k)).toInt

/-- `_mm256_mullo_epi16`: the low halves of the products. -/
def mulloEpi16 (x y : Lanes) : Lanes := fun k => op 16 (· * ·) (x k) (y k)

/-- `_mm256_set1_epi16(1)`. -/
def ones : Lanes := fun _ => exact 1

/-- `_mm256_madd_epi16`: products in 32 bits, added in pairs. -/
def maddEpi16 (x y : Lanes) : Lanes := fun j =>
  op 32 (· + ·) (op 32 (· * ·) (x (2 * j)) (y (2 * j)))
    (op 32 (· * ·) (x (2 * j + 1)) (y (2 * j + 1)))

/-- `_mm256_add_epi32`. -/
def addEpi32 (x y : Lanes) : Lanes := fun j => op 32 (· + ·) (x j) (y j)

/-- `for (; i + 31 < n; i += 32)`, from `i`: the state and the first index left. -/
def vectorLoop {S : Type} (n : ℕ) (body : ℕ → S → S) (i : ℕ) (s : S) : ℕ × S :=
  if i + 31 < n then vectorLoop n body (i + 32) (body i s) else (i, s)
termination_by n - i

/-- One turn of the vector loop for one accumulator. -/
def accumulate (a b : ℕ → BitVec 8) (i : ℕ) (acc : Lanes) : Lanes :=
  let prodLo := mulloEpi16 (cvtepi8Epi16 a i) (cvtepi8Epi16 b i)
  let prodHi := mulloEpi16 (cvtepi8Epi16 a (i + 16)) (cvtepi8Epi16 b (i + 16))
  addEpi32 (addEpi32 acc (maddEpi16 prodLo ones)) (maddEpi16 prodHi ones)

/-- `for (int j = 0; j < 8; ++j) acc += tmp[j];` -/
def addLane (tmp : Lanes) (j : ℕ) (acc : Word) : Word := op 32 (· + ·) acc (tmp j)

/-- One turn of the tail loop: `acc += int32(a[i]) * int32(b[i])`. -/
def addTail (a b : ℕ → BitVec 8) (i : ℕ) (acc : Word) : Word :=
  op 32 (· + ·) acc (op 32 (· * ·) (exact (a i).toInt) (exact (b i).toInt))

def zeroLanes : Lanes := fun _ => exact 0

def dotI8Avx2 (a b : ℕ → BitVec 8) (n : ℕ) : Word :=
  let (i, acc32) := vectorLoop n (accumulate a b) 0 zeroLanes
  let acc := loop (List.range 8) (addLane acc32) (exact 0)
  loop (List.range' i (n - i)) (addTail a b) acc

def dotI8Avx2Pair (a b0 b1 : ℕ → BitVec 8) (n : ℕ) : Word × Word :=
  let (i, acc) := vectorLoop n
    (fun i acc => (accumulate a b0 i acc.1, accumulate a b1 i acc.2)) 0 (zeroLanes, zeroLanes)
  let s := loop (List.range 8) (fun j s => (addLane acc.1 j s.1, addLane acc.2 j s.2))
    (exact 0, exact 0)
  loop (List.range' i (n - i)) (fun i s => (addTail a b0 i s.1, addTail a b1 i s.2)) s

def dotI8Avx2Four (a0 a1 a2 a3 b : ℕ → BitVec 8) (n : ℕ) : Word × Word × Word × Word :=
  let (i, acc) := vectorLoop n
    (fun i acc => (accumulate a0 b i acc.1, accumulate a1 b i acc.2.1,
      accumulate a2 b i acc.2.2.1, accumulate a3 b i acc.2.2.2)) 0
    (zeroLanes, zeroLanes, zeroLanes, zeroLanes)
  let s := loop (List.range 8)
    (fun j s => (addLane acc.1 j s.1, addLane acc.2.1 j s.2.1, addLane acc.2.2.1 j s.2.2.1,
      addLane acc.2.2.2 j s.2.2.2)) (exact 0, exact 0, exact 0, exact 0)
  loop (List.range' i (n - i))
    (fun i s => (addTail a0 b i s.1, addTail a1 b i s.2.1, addTail a2 b i s.2.2.1,
      addTail a3 b i s.2.2.2)) s

lemma vectorLoop_eq {S : Type} (n : ℕ) (body : ℕ → S → S) (i : ℕ) (s : S) :
    vectorLoop n body i s = (i + 32 * ((n - i) / 32),
      loop (List.range ((n - i) / 32)) (fun k => body (i + 32 * k)) s) := by
  fun_induction vectorLoop n body i s with
  | case1 i s inside ih =>
    have blocks : (n - i) / 32 = (n - (i + 32)) / 32 + 1 := by omega
    rw [ih, blocks, List.range_succ_eq_map, loop_cons, loop, loop, List.foldl_map]
    refine Prod.ext ?_ ?_
    · simp only
      omega
    · simp only [Nat.mul_zero, Nat.add_zero]
      congr 1
      funext s k
      congr 1
      omega
  | case2 i s outside =>
    have none : (n - i) / 32 = 0 := by omega
    rw [none]
    rfl

section Bounds

variable (a b : ℕ → BitVec 8)

/-- The products of the bytes. -/
def product (i : ℕ) : ℤ := (a i).toInt * (b i).toInt

lemma product_bound (i : ℕ) : (product a b i).natAbs ≤ 16384 := by
  have byte : ∀ x : BitVec 8, x.toInt.natAbs ≤ 128 := by
    intro x
    have low := BitVec.le_toInt x
    have high := BitVec.toInt_lt (x := x)
    omega
  rw [product, Int.natAbs_mul]
  exact Nat.mul_le_mul (byte (a i)) (byte (b i))

/-- What a lane has after `c` turns. -/
def laneSum (c j : ℕ) : ℤ :=
  ∑ k ∈ Finset.range c, (product a b (32 * k + 2 * j) + product a b (32 * k + (2 * j + 1)) +
    (product a b (32 * k + 16 + 2 * j) + product a b (32 * k + 16 + (2 * j + 1))))

lemma laneSum_bound (c j : ℕ) : (laneSum a b c j).natAbs ≤ c * 65536 := by
  induction c with
  | zero => simp [laneSum]
  | succ c ih =>
    have h1 := product_bound a b (32 * c + 2 * j)
    have h2 := product_bound a b (32 * c + (2 * j + 1))
    have h3 := product_bound a b (32 * c + 16 + 2 * j)
    have h4 := product_bound a b (32 * c + 16 + (2 * j + 1))
    unfold laneSum at ih ⊢
    rw [Finset.sum_range_succ]
    omega

lemma sum_laneSum (c : ℕ) :
    ∑ j ∈ Finset.range 8, laneSum a b c j = ∑ i ∈ Finset.range (32 * c), product a b i := by
  induction c with
  | zero => simp [laneSum]
  | succ c ih =>
    have block : ∑ i ∈ Finset.range (32 * (c + 1)), product a b i =
        ∑ i ∈ Finset.range (32 * c), product a b i +
          ∑ k ∈ Finset.range 32, product a b (32 * c + k) := Finset.sum_range_add _ _ _
    have lanes : ∀ j, laneSum a b (c + 1) j = laneSum a b c j +
        (product a b (32 * c + 2 * j) + product a b (32 * c + (2 * j + 1)) +
          (product a b (32 * c + 16 + 2 * j) + product a b (32 * c + 16 + (2 * j + 1)))) :=
      fun j => Finset.sum_range_succ _ _
    rw [block, ← ih, Finset.sum_congr rfl fun j _ => lanes j, Finset.sum_add_distrib]
    congr 1
    simp only [Finset.sum_range_succ, Finset.sum_range_zero, Nat.add_assoc]
    ring

end Bounds

section Exact

variable (a b : ℕ → BitVec 8)

lemma mulloEpi16_exact (i k : ℕ) :
    mulloEpi16 (cvtepi8Epi16 a i) (cvtepi8Epi16 b i) k = exact (product a b (i + k)) := by
  have bound := product_bound a b (i + k)
  apply op_exact
  change Fits 16 (product a b (i + k))
  unfold Fits
  omega

lemma maddEpi16_exact (i j : ℕ) :
    maddEpi16 (mulloEpi16 (cvtepi8Epi16 a i) (cvtepi8Epi16 b i)) ones j =
      exact (product a b (i + 2 * j) + product a b (i + (2 * j + 1))) := by
  have bound := product_bound a b (i + 2 * j)
  have bound' := product_bound a b (i + (2 * j + 1))
  have single : ∀ v : ℤ, v.natAbs ≤ 16384 → op 32 (· * ·) (exact v) (ones 0) = exact v := by
    intro v small
    unfold ones
    rw [op_exact]
    · rw [mul_one]
    · unfold Fits
      omega
  unfold maddEpi16
  rw [mulloEpi16_exact, mulloEpi16_exact, show ones (2 * j) = ones 0 from rfl,
    show ones (2 * j + 1) = ones 0 from rfl, single _ bound, single _ bound', op_exact]
  unfold Fits
  omega

lemma accumulate_exact (i j : ℕ) {acc : Lanes} {v : ℤ} (here : acc j = exact v)
    (room : v.natAbs + 65536 < 2 ^ 31) :
    accumulate a b i acc j =
      exact (v + (product a b (i + 2 * j) + product a b (i + (2 * j + 1)) +
        (product a b (i + 16 + 2 * j) + product a b (i + 16 + (2 * j + 1))))) := by
  have h1 := product_bound a b (i + 2 * j)
  have h2 := product_bound a b (i + (2 * j + 1))
  have h3 := product_bound a b (i + 16 + 2 * j)
  have h4 := product_bound a b (i + 16 + (2 * j + 1))
  unfold accumulate addEpi32
  rw [here, maddEpi16_exact, maddEpi16_exact, op_exact, op_exact, add_assoc]
  · unfold Fits
    omega
  · unfold Fits
    omega

lemma lanes_exact {c : ℕ} (small : c < 4096) (j : ℕ) :
    loop (List.range c) (fun k => accumulate a b (0 + 32 * k)) zeroLanes j =
      exact (laneSum a b c j) := by
  induction c with
  | zero => rfl
  | succ c ih =>
    have bound := laneSum_bound a b c j
    rw [List.range_succ, loop_append, loop_cons, loop_nil, Nat.zero_add,
      accumulate_exact a b (32 * c) j (ih (by omega)) (by omega), laneSum, laneSum,
      Finset.sum_range_succ]

/-- The three loops of a dot product, for one accumulator. -/
def dotLoops (a b : ℕ → BitVec 8) (n : ℕ) : Word :=
  loop (List.range' (0 + 32 * ((n - 0) / 32)) (n - (0 + 32 * ((n - 0) / 32)))) (addTail a b)
    (loop (List.range 8)
      (addLane (loop (List.range ((n - 0) / 32)) (fun k => accumulate a b (0 + 32 * k)) zeroLanes))
      (exact 0))

lemma dotLoops_exact {n : ℕ} (small : n < 131072) :
    dotLoops a b n =
      exact (Int8Kernels.dot n (fun i => (a i).toInt) fun i => (b i).toInt) := by
  have lanes : loop (List.range 8)
      (addLane (loop (List.range (n / 32)) (fun k => accumulate a b (0 + 32 * k)) zeroLanes))
      (exact 0) = exact (∑ i ∈ Finset.range (32 * (n / 32)), product a b i) := by
    have each : addLane (loop (List.range (n / 32)) (fun k => accumulate a b (0 + 32 * k))
        zeroLanes) = fun j acc => op 32 (· + ·) acc (exact (laneSum a b (n / 32) j)) := by
      funext j acc
      rw [addLane, lanes_exact a b (by omega)]
    rw [each, loop_add (fun j _ => laneSum_bound a b (n / 32) j), ← sum_laneSum]
    · rw [zero_add]
      rfl
    · simp only [List.length_range]
      omega
  have tail : addTail a b = fun i acc => op 32 (· + ·) acc (exact (product a b i)) := by
    funext i acc
    have bound := product_bound a b i
    rw [addTail, op_exact]
    · rfl
    · change Fits 32 (product a b i)
      unfold Fits
      omega
  have whole : (∑ i ∈ Finset.range (32 * (n / 32)), product a b i).natAbs ≤
      32 * (n / 32) * 16384 := by
    have sum := Finset.sum_le_card_nsmul (Finset.range (32 * (n / 32)))
      (fun i => (product a b i).natAbs) 16384 fun i _ => product_bound a b i
    rw [Finset.card_range, nsmul_eq_mul, Nat.cast_id] at sum
    exact (Int.natAbs_sum_le _ _).trans sum
  unfold dotLoops
  rw [Nat.sub_zero, lanes, Nat.zero_add, tail,
    loop_add (fun i _ => product_bound a b i)]
  · congr 1
    rw [Int8Kernels.dot, ← Finset.sum_range_add_sum_Ico _ (show 32 * (n / 32) ≤ n by omega)]
    congr 1
  · rw [List.length_range']
    omega

lemma dotI8Avx2_eq (n : ℕ) : dotI8Avx2 a b n = dotLoops a b n := by
  unfold dotI8Avx2 dotLoops
  rw [vectorLoop_eq]

lemma dotI8Avx2Pair_eq (b' : ℕ → BitVec 8) (n : ℕ) :
    dotI8Avx2Pair a b b' n = (dotLoops a b n, dotLoops a b' n) := by
  unfold dotI8Avx2Pair dotLoops
  rw [vectorLoop_eq]
  simp only [loop_prod]

lemma dotI8Avx2Four_eq (a1 a2 a3 : ℕ → BitVec 8) (n : ℕ) :
    dotI8Avx2Four a a1 a2 a3 b n =
      (dotLoops a b n, dotLoops a1 b n, dotLoops a2 b n, dotLoops a3 b n) := by
  unfold dotI8Avx2Four dotLoops
  rw [vectorLoop_eq]
  simp only [loop_four]

end Exact

/-- The integer dot product, reached without an overflow. -/
def exactDot (a b : ℕ → BitVec 8) (n : ℕ) : Word :=
  exact (Int8Kernels.dot n (fun i => (a i).toInt) fun i => (b i).toInt)

/-- For fewer than 131072 bytes all three functions give the integer dot products, and nothing
overflows on the way. -/
theorem dots_exact {n : ℕ} (small : n < 131072) :
    (∀ a b, dotI8Avx2 a b n = exactDot a b n) ∧
    (∀ a b0 b1, dotI8Avx2Pair a b0 b1 n = (exactDot a b0 n, exactDot a b1 n)) ∧
    ∀ a0 a1 a2 a3 b, dotI8Avx2Four a0 a1 a2 a3 b n =
      (exactDot a0 b n, exactDot a1 b n, exactDot a2 b n, exactDot a3 b n) := by
  have each : ∀ a b, dotLoops a b n = exactDot a b n := fun a b => dotLoops_exact a b small
  refine ⟨?_, ?_, ?_⟩
  · intro a b
    rw [dotI8Avx2_eq, each]
  · intro a b0 b1
    rw [dotI8Avx2Pair_eq, each, each]
  · intro a0 a1 a2 a3 b
    rw [dotI8Avx2Four_eq, each, each, each, each]

/-- The longest vectors, of -128 throughout. -/
theorem dots_exact_longest :
    dotI8Avx2 (fun _ => -128) (fun _ => -128) 131071 =
      exactDot (fun _ => -128) (fun _ => -128) 131071 :=
  (dots_exact (by decide)).1 _ _

end PocketMoE.Backend.DotI8
