import Mathlib.Data.Int.Init
import Mathlib.Tactic.Lemma
import PocketMoE.Lib.Loop

/-!
# Machine words that remember an overflow

A word has the value the hardware leaves and whether an operation on the way to it left the signed
range. `op` wraps the result of an operation to a width; while results fit, words are the integers
they stand for.
-/

namespace PocketMoE.Lib

/-- A value, and whether something overflowed on the way to it. -/
structure Word where
  value : ℤ
  overflow : Bool
deriving DecidableEq

namespace Word

/-- A value without a past. -/
def exact (v : ℤ) : Word := ⟨v, false⟩

/-- The result of an operation, wrapped to `width` bits of two's complement. -/
def op (width : ℕ) (f : ℤ → ℤ → ℤ) (x y : Word) : Word :=
  let v := f x.value y.value
  let wrapped := v.bmod (2 ^ width)
  ⟨wrapped, x.overflow || y.overflow || decide (wrapped ≠ v)⟩

/-- The signed range of a width. -/
def Fits (width : ℕ) (v : ℤ) : Prop := -2 ^ width ≤ 2 * v ∧ 2 * v < 2 ^ width

lemma bmod_of_fits {width : ℕ} {v : ℤ} (fits : Fits width v) : v.bmod (2 ^ width) = v := by
  obtain ⟨low, high⟩ := fits
  apply Int.bmod_eq_of_le_mul_two
  · push_cast
    omega
  · push_cast
    omega

lemma fits_bmod {width : ℕ} (pos : 0 < width) (v : ℤ) : Fits width (v.bmod (2 ^ width)) := by
  obtain ⟨w, rfl⟩ := Nat.exists_eq_add_of_lt pos
  have half : 2 ^ (0 + w + 1) = 2 * 2 ^ w := by ring
  have low := Int.le_bmod (x := v) (Nat.two_pow_pos (0 + w + 1))
  have high := Int.bmod_lt (x := v) (Nat.two_pow_pos (0 + w + 1))
  have cast : (2 : ℤ) ^ (0 + w + 1) = ((2 ^ (0 + w + 1) : ℕ) : ℤ) := by push_cast; rfl
  unfold Fits
  rw [cast]
  rw [half] at low high ⊢
  omega

lemma op_exact {width : ℕ} {f : ℤ → ℤ → ℤ} {x y : ℤ} (fits : Fits width (f x y)) :
    op width f (exact x) (exact y) = exact (f x y) := by
  simp [op, exact, bmod_of_fits fits]

lemma loop_add {ι : Type*} {width : ℕ} {bound : ℕ} {order : List ι} {f : ι → ℤ} {a : ℤ}
    (each : ∀ i ∈ order, (f i).natAbs ≤ bound)
    (fits : 2 * (a.natAbs + order.length * bound) < 2 ^ width) :
    loop order (fun i s => op width (· + ·) s (exact (f i))) (exact a) =
      exact (a + (order.map f).sum) := by
  induction order generalizing a with
  | nil => simp
  | cons i order ih =>
    have here := each i (List.mem_cons_self ..)
    rw [List.length_cons, Nat.add_mul, Nat.one_mul] at fits
    have cast : (2 : ℤ) ^ width = ((2 ^ width : ℕ) : ℤ) := by push_cast; rfl
    have first : Fits width (a + f i) := by
      unfold Fits
      rw [cast]
      omega
    rw [loop_cons, op_exact first, ih]
    · rw [List.map_cons, List.sum_cons, add_assoc]
    · exact fun j member => each j (List.mem_cons_of_mem i member)
    · omega

end Word

lemma loop_bmod {ι : Type*} (order : List ι) (f : ι → ℤ) (a : ℤ) (n : ℕ) :
    loop order (fun i s => (s + f i).bmod n) (a.bmod n) = (a + (order.map f).sum).bmod n := by
  induction order generalizing a with
  | nil => simp
  | cons i order ih =>
    rw [loop_cons, Int.bmod_add_bmod, ih, List.map_cons, List.sum_cons, add_assoc]

lemma loop_prod {ι S T : Type*} (f : ι → S → S) (g : ι → T → T) (order : List ι) (s : S × T) :
    loop order (fun i s => (f i s.1, g i s.2)) s = (loop order f s.1, loop order g s.2) := by
  induction order generalizing s with
  | nil => rfl
  | cons i order ih =>
    rw [loop_cons, ih]
    rfl

lemma loop_four {ι S : Type*} (f g h k : ι → S → S) (order : List ι) (s : S × S × S × S) :
    loop order (fun i s => (f i s.1, g i s.2.1, h i s.2.2.1, k i s.2.2.2)) s =
      (loop order f s.1, loop order g s.2.1, loop order h s.2.2.1, loop order k s.2.2.2) := by
  have outer := loop_prod f (fun i t => (g i t.1, h i t.2.1, k i t.2.2)) order s
  have middle := loop_prod g (fun i t => (h i t.1, k i t.2)) order s.2
  rw [outer, middle, loop_prod]

end PocketMoE.Lib
