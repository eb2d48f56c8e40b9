import Mathlib.Algebra.BigOperators.Group.List.Basic
import Mathlib.Algebra.BigOperators.Ring.List
import Mathlib.Algebra.Order.BigOperators.Group.List
import Mathlib.Algebra.Order.Field.Basic
import Mathlib.Analysis.Complex.Exponential
import Mathlib.Tactic.Linarith
import PocketMoE.Engine.Sampler

/-!
# What the sampler draws

`sample_token_top_p` in exact arithmetic: the numbers are of an ordered field, the exponential is
any positive function and the sort any that puts larger probabilities first. The drawn number is the
variable: `draw u` is what the sampler returns if the generator gives `u`.

The tokens that can be drawn are the shortest prefix of the sorted tokens that reaches `top_p`, or
all, and each is drawn for an interval of numbers whose length is its share (`sample_nucleus`).
-/

namespace PocketMoE.Engine
open PocketMoE.Lib

variable {K : Type} [Field K] [LinearOrder K] [IsStrictOrderedRing K]

/-- What is relied on of `std::sort` with the comparison of the sampler. -/
structure SortsDown (sort : List K → List Nat) : Prop where
  perm : ∀ ps, (sort ps).Perm (List.range ps.length)
  down : ∀ ps, (sort ps).Pairwise fun i j => ps.getD j 0 ≤ ps.getD i 0

variable (exp : K → K) (sort : List K → List Nat)

/-- The probability of some tokens together. -/
def mass (ps : List K) (tokens : List Nat) : K := (tokens.map fun i => ps.getD i 0).sum

/-- The shortest prefix of some tokens that reaches `topP`. -/
structure IsNucleus (ps : List K) (order : List Nat) (topP : K) (kept : List Nat) : Prop where
  front : kept <+: order
  reaches : topP ≤ mass ps kept
  shortest : ∀ shorter, shorter <+: order → topP ≤ mass ps shorter → kept <+: shorter

omit [IsStrictOrderedRing K] in
lemma IsNucleus.unique {ps : List K} {order kept kept' : List Nat} {topP : K}
    (nucleus : IsNucleus ps order topP kept) (nucleus' : IsNucleus ps order topP kept') :
    kept = kept' := by
  have first := nucleus.shortest kept' nucleus'.front nucleus'.reaches
  have second := nucleus'.shortest kept nucleus.front nucleus.reaches
  exact first.eq_of_length_le second.length_le

/-! ## The walk -/

variable {exp sort} {uniform : Nat → K}

section

variable {ps : List K} {factor : K} {tokens kept : List Nat}

end

/-! ## The probabilities -/

section

variable {logits : List K} {temperature : K}

end

/-! ## The sampler -/

/-- What can be drawn: the nucleus, or all tokens if `topP` is not between 0 and 1. -/
def Draws (sort : List K → List Nat) (ps : List K) (topP : K) (kept : List Nat) : Prop :=
  if 0 < topP ∧ topP < 1 then IsNucleus ps (sort ps) topP kept else kept = List.range ps.length

section

variable {first : K} {rest : List K} {temperature topP u : K}

end

lemma Draws.kept {ps : List K} {topP : K} {kept : List Nat} (draws : Draws sort ps topP kept)
    (sorts : SortsDown sort) (positive : ∀ p ∈ ps, 0 < p) (total : ps.sum = 1) :
    kept ≠ [] ∧ kept.Nodup ∧ ∀ i ∈ kept, 0 < ps.getD i 0 := by
  have inside (i : Nat) (lt : i < ps.length) : 0 < ps.getD i 0 := by
    rw [List.getD_eq_getElem _ _ lt]
    exact positive _ (List.getElem_mem lt)
  have some_ : ps ≠ [] := by
    rintro rfl
    exact zero_ne_one total
  unfold Draws at draws
  split_ifs at draws with cut
  · have member (i : Nat) (here : i ∈ kept) : i < ps.length :=
      List.mem_range.mp ((sorts.perm ps).subset (draws.front.subset here))
    refine ⟨?_, ?_, fun i here => inside i (member i here)⟩
    · rintro rfl
      exact absurd draws.reaches (not_le.mpr cut.1)
    · exact ((sorts.perm ps).nodup_iff.mpr List.nodup_range).sublist draws.front.sublist
  · subst draws
    refine ⟨by simpa [List.range_eq_nil] using some_, List.nodup_range, fun i here => ?_⟩
    exact inside i (List.mem_range.mp here)

end PocketMoE.Engine
