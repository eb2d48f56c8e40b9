import Mathlib.Algebra.BigOperators.Group.List.Basic
import Mathlib.Algebra.BigOperators.Ring.Finset
import Mathlib.Algebra.Field.Basic
import Mathlib.Order.WithBot
import Mathlib.Tactic.Lemma
import Mathlib.Tactic.Ring

/-!
# Softmax over scores that may be minus infinity

A score is a scalar or `⊥`, which stands for `-inf` and has weight zero. The exponential is a
parameter, so that the sums can be computed over any field.
-/

namespace PocketMoE.Softmax

variable {K : Type*} [Field K]

/-- The unnormalised softmax weight of a score. -/
def weight (expo : K → K) : WithBot K → K
  | ⊥ => 0
  | (score : K) => expo score

/-- `(values * scores.softmax()).sum()`. -/
def softmaxSum (expo : K → K) (values : List K) (scores : List (WithBot K)) : K :=
  let total := (scores.map (weight expo)).sum
  (List.zipWith (fun value score => value * (weight expo score / total)) values scores).sum

@[simp] lemma weight_bot (expo : K → K) : weight expo ⊥ = 0 := rfl

@[simp] lemma weight_coe (expo : K → K) (score : K) : weight expo score = expo score := rfl

lemma softmaxSum_replicate (expo : K → K) (values : List K) (score : K) (ne : expo score ≠ 0) :
    softmaxSum expo values (List.replicate values.length (score : WithBot K)) =
      values.sum / values.length := by
  simp only [softmaxSum, List.map_replicate, weight_coe, List.sum_replicate, nsmul_eq_mul]
  generalize (values.length : K) = total
  have share : expo score / (total * expo score) = 1 / total := by
    rw [mul_comm, ← div_div, div_self ne]
  induction values with
  | nil => simp
  | cons v vs ih =>
    simp only [List.length_cons, List.replicate_succ, List.zipWith_cons_cons, List.sum_cons,
      weight_coe, ih, share]
    ring

section Shift

variable [LinearOrder K]

/-- A positive function that turns sums into products. -/
structure Exponential (K : Type*) [Field K] [LinearOrder K] where
  exp : K → K
  pos : ∀ a, 0 < exp a
  add : ∀ a b, exp (a + b) = exp a * exp b

/-- `exp(score - max)`, for a maximum that is not minus infinity. -/
def Exponential.shifted (e : Exponential K) (score max : WithBot K) : K :=
  match score, max with
  | (score : K), (max : K) => e.exp (score - max)
  | _, _ => 0

lemma Exponential.weight_eq (e : Exponential K) (score : WithBot K) (max : K) :
    weight e.exp score = e.shifted score max * e.exp max := by
  cases score with
  | bot => exact (zero_mul _).symm
  | coe score =>
    change e.exp score = e.exp (score - max) * e.exp max
    rw [← e.add]
    congr 1
    ring

lemma Exponential.shifted_mean (e : Exponential K) (n : ℕ) (score : ℕ → WithBot K) (value : ℕ → K)
    (sink max : K) :
    (∑ t ∈ Finset.range n, e.shifted (score t) max * value t) /
        (∑ t ∈ Finset.range n, e.shifted (score t) max + e.exp (sink - max)) =
      (∑ t ∈ Finset.range n, weight e.exp (score t) * value t) /
        (∑ t ∈ Finset.range n, weight e.exp (score t) + e.exp sink) := by
  have sinkWeight : e.exp sink = e.exp (sink - max) * e.exp max := e.weight_eq (sink : K) max
  have values : ∀ t, weight e.exp (score t) * value t =
      e.shifted (score t) max * value t * e.exp max := by
    intro t
    rw [e.weight_eq _ max]
    ring
  simp only [values]
  simp only [e.weight_eq _ max]
  rw [← Finset.sum_mul, ← Finset.sum_mul, sinkWeight, ← add_mul,
    mul_div_mul_right _ _ (e.pos max).ne']

end Shift

end PocketMoE.Softmax
