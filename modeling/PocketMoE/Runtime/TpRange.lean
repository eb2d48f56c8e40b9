import PocketMoE.Lib.EvenCut

/-!
# Ranges of the ranks

`tp_vocab_row_range` (`tp_logits.py`) and `minimax_m2_tp_expert_range` (`moe_planning.py`) make the
same checks and the same cut, with other names in their messages.
-/

namespace PocketMoE.Runtime
open PocketMoE.Lib

/-- The part of a rank: where it starts, and how much it is. -/
def tpRange (totalName worldName rankName : String) (total world rank : Int) :
    Except String (Int × Int) :=
  if total ≤ 0 then .error s!"{totalName} must be positive, got {total}"
  else if world ≤ 0 then .error s!"{worldName} must be positive, got {world}"
  else if rank < 0 ∨ rank ≥ world then .error s!"{rankName} {rank} outside [0, {world})"
  else
    let start := total * rank / world
    let stop := total * (rank + 1) / world
    .ok (start, stop - start)

def tpVocabRowRange (totalRows world rank : Int) : Except String (Int × Int) :=
  tpRange "total_rows" "world" "rank" totalRows world rank

def minimaxM2TpExpertRange (nExperts tpWorld tpRank : Int) : Except String (Int × Int) :=
  tpRange "n_experts" "tp_world" "tp_rank" nExperts tpWorld tpRank

/-- The size of a part. -/
def partSize (total world rank : Nat) : Nat := cutAt total world (rank + 1) - cutAt total world rank

lemma cutAt_add_partSize (total world rank : Nat) :
    cutAt total world rank + partSize total world rank = cutAt total world (rank + 1) :=
  Nat.add_sub_of_le (cutAt_mono total world rank.le_succ)

lemma sum_partSize {world : Nat} (pos : 0 < world) (total : Nat) :
    ((List.range world).map (partSize total world)).sum = total := by
  have upTo : ∀ n, ((List.range n).map (partSize total world)).sum = cutAt total world n := by
    intro n
    induction n with
    | zero => rw [cutAt_zero, List.range_zero, List.map_nil, List.sum_nil]
    | succ n ih =>
      rw [List.range_succ, List.map_append, List.sum_append, ih, List.map_singleton,
        List.sum_singleton, cutAt_add_partSize]
  rw [upTo, cutAt_self pos]

lemma tpRange_eq (totalName worldName rankName : String) {total world rank : Nat}
    (some_ : 0 < total) (member : rank < world) :
    tpRange totalName worldName rankName total world rank =
      .ok (cutAt total world rank, partSize total world rank) := by
  have le := cutAt_mono total world rank.le_succ
  rw [tpRange, if_neg (by omega), if_neg (by omega), if_neg (by omega), partSize, Int.ofNat_sub le]
  rfl

end PocketMoE.Runtime
