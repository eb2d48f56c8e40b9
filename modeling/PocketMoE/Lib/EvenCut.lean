import Mathlib.Algebra.BigOperators.Intervals
import Mathlib.Order.Monotone.Defs
import PocketMoE.Lib.Tensor

/-!
# A range cut into parts of almost one size

`cutAt total parts r` is where part `r` starts if `total` places are divided among `parts`. The
parts follow each other (`flatMap_cuts`), so every place is in one of them (`sum_owned`), and none
is empty if there are places enough (`cutAt_lt_succ`).
-/

namespace PocketMoE.Lib
open PocketMoE.Tensor

variable {α : Type*}

/-- The start of a part. -/
def cutAt (total parts r : Nat) : Nat := total * r / parts

@[simp] lemma cutAt_zero (total parts : Nat) : cutAt total parts 0 = 0 := by
  rw [cutAt, Nat.mul_zero, Nat.zero_div]

lemma cutAt_self {parts : Nat} (pos : 0 < parts) (total : Nat) : cutAt total parts parts = total :=
  Nat.mul_div_cancel total pos

lemma cutAt_mono (total parts : Nat) : Monotone (cutAt total parts) := by
  intro r r' le
  exact Nat.div_le_div_right (Nat.mul_le_mul_left total le)

lemma cutAt_le {total parts r : Nat} (le : r ≤ parts) : cutAt total parts r ≤ total := by
  rcases Nat.eq_zero_or_pos parts with rfl | pos
  · rw [cutAt, Nat.div_zero]
    exact Nat.zero_le total
  · exact (cutAt_mono total parts le).trans (cutAt_self pos total).le

lemma cutAt_lt_succ {total parts : Nat} (pos : 0 < parts) (enough : parts ≤ total) (r : Nat) :
    cutAt total parts r < cutAt total parts (r + 1) := by
  calc total * r / parts < total * r / parts + 1 := Nat.lt_succ_self _
    _ = (total * r + parts) / parts := (Nat.add_div_right _ pos).symm
    _ ≤ (total * r + total) / parts := Nat.div_le_div_right (Nat.add_le_add_left enough _)

lemma cutAt_one {total parts : Nat} (few : total < parts) : cutAt total parts 1 = 0 := by
  rw [cutAt, Nat.mul_one, Nat.div_eq_of_lt few]

section Cuts

variable {cut : Nat → Nat}

lemma flatMap_cuts (zero : cut 0 = 0) (row : List α) {n : Nat}
    (mono : ∀ r < n, cut r ≤ cut (r + 1)) :
    ((List.range n).flatMap fun r => slice row (cut r) (cut (r + 1))) = row.take (cut n) := by
  induction n with
  | zero => rw [zero, List.take_zero, List.range_zero, List.flatMap_nil]
  | succ n ih =>
    rw [List.range_succ, List.flatMap_append, ih fun r less => mono r (less.trans n.lt_succ_self),
      List.flatMap_singleton]
    exact take_append_slice row (mono n n.lt_succ_self)

lemma sum_owned [AddCommMonoid α] (zero : cut 0 = 0) (mono : Monotone cut) (i : Nat) (x : α)
    (n : Nat) :
    (∑ r ∈ Finset.range n, if cut r ≤ i ∧ i < cut (r + 1) then x else 0) =
      if i < cut n then x else 0 := by
  induction n with
  | zero => simp [zero]
  | succ n ih =>
    have le := mono n.le_succ
    rw [Finset.sum_range_succ, ih]
    rcases Nat.lt_or_ge i (cut n) with earlier | here
    · rw [if_pos earlier, if_neg fun both => absurd both.1 (Nat.not_le.mpr earlier),
        if_pos (earlier.trans_le le), add_zero]
    · rw [if_neg (Nat.not_lt.mpr here), zero_add]
      exact if_congr (and_iff_right here) rfl rfl

end Cuts

end PocketMoE.Lib
