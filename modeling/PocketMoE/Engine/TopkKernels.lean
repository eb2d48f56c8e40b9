import PocketMoE.Lib.FirstMax

/-!
# The top-k kernels

`indexer_topk_kernel` (`cuda_ops.cu`) and `flashmemory_topk_kernel` (`flashmemory_ops.cu`). In each
round a block of threads finds the best candidate that is left. The first kernel then sets its score
to minus infinity; the second leaves the scores as they are and passes over the candidates it has
stored already.

Both store the candidates in the order of `ranked`: by score, the largest first, and by index on a
tie (`topk_ranked`).
-/

namespace PocketMoE.Engine
open PocketMoE.Lib

variable {α : Type} [LinearOrder α]

/-- The rounds of `indexer_topk_kernel`. -/
def indexerTopkKernel (threads compressedCount offset : Nat) :
    Nat → (Nat → WithBot α) → List Nat
  | 0, _ => []
  | keep + 1, scores =>
    let idx := (blockBest threads compressedCount (fun _ => true) compressedCount scores).2
    let scores := if idx < compressedCount then Function.update scores idx ⊥ else scores
    (offset + idx) :: indexerTopkKernel threads compressedCount offset keep scores

/-- The rounds of `flashmemory_topk_kernel`: the indices and the scores it stores. -/
def flashmemoryTopkKernel (threads nChunks : Nat) (scores : Nat → WithBot α) :
    Nat → List (Nat × WithBot α) → List (Nat × WithBot α)
  | 0, out => out
  | keep + 1, out =>
    let best := blockBest threads nChunks (fun i => i ∉ out.map Prod.fst) nChunks scores
    flashmemoryTopkKernel threads nChunks scores keep (out ++ [(best.2, best.1)])

/-- `flashmemory_topk_cuda`. -/
def flashmemoryTopk (scores : Nat → WithBot α) (nChunks keep : Nat) :
    Option (List (Nat × WithBot α)) :=
  if nChunks = 0 ∨ keep = 0 ∨ nChunks < keep then none
  else some (flashmemoryTopkKernel 256 nChunks scores keep [])

/-! ## The order of the candidates -/

/-- A candidate that comes before another: a larger score, or the same score and a lower index. -/
def Before (score : Nat → α) (i j : Nat) : Prop :=
  score j < score i ∨ score i = score j ∧ i ≤ j

instance (score : Nat → α) (i j : Nat) : Decidable (Before score i j) :=
  inferInstanceAs (Decidable (_ ∨ _ ∧ _))

/-- The candidates in that order. -/
def ranked (score : Nat → α) (count : Nat) : List Nat :=
  (List.range count).mergeSort fun i j => Before score i j

lemma before_trans (score : Nat → α) (i j k : Nat) (first : Before score i j)
    (second : Before score j k) : Before score i k := by
  rcases first with lt | ⟨same, le⟩
  · rcases second with lt' | ⟨same', -⟩
    · exact .inl (lt'.trans lt)
    · exact .inl (same' ▸ lt)
  · rcases second with lt' | ⟨same', le'⟩
    · exact .inl (same ▸ lt')
    · exact .inr ⟨same.trans same', Nat.le_trans le le'⟩

lemma before_total (score : Nat → α) (i j : Nat) : Before score i j ∨ Before score j i := by
  rcases lt_trichotomy (score i) (score j) with lt | same | gt
  · exact .inr (.inl lt)
  · rcases Nat.le_total i j with le | ge
    · exact .inl (.inr ⟨same, le⟩)
    · exact .inr (.inr ⟨same.symm, ge⟩)
  · exact .inl (.inl gt)

variable {score : Nat → α} {count : Nat}

lemma ranked_perm (score : Nat → α) (count : Nat) :
    (ranked score count).Perm (List.range count) := List.mergeSort_perm ..

lemma ranked_length : (ranked score count).length = count := by
  rw [(ranked_perm score count).length_eq, List.length_range]

lemma ranked_nodup : (ranked score count).Nodup :=
  (ranked_perm score count).nodup_iff.mpr List.nodup_range

lemma mem_ranked {i : Nat} : i ∈ ranked score count ↔ i < count := by
  rw [(ranked_perm score count).mem_iff, List.mem_range]

lemma ranked_pairwise : (ranked score count).Pairwise (Before score) := by
  have trans (i j k : Nat) (first : decide (Before score i j))
      (second : decide (Before score j k)) : decide (Before score i k) :=
    decide_eq_true (before_trans score i j k (of_decide_eq_true first) (of_decide_eq_true second))
  have total (i j : Nat) : decide (Before score i j) || decide (Before score j i) := by
    rw [Bool.or_eq_true, decide_eq_true_eq, decide_eq_true_eq]
    exact before_total score i j
  exact (List.pairwise_mergeSort trans total _).imp of_decide_eq_true

lemma ranked_next {k : Nat} (lt : k < count) :
    ∃ i, (ranked score count)[k]? = some i ∧ i < count ∧ i ∉ (ranked score count).take k ∧
      ∀ j < count, j ∉ (ranked score count).take k → Before score i j := by
  have inside : k < (ranked score count).length := lt.trans_eq ranked_length.symm
  have split : ranked score count = (ranked score count).take k ++
      (ranked score count)[k] :: (ranked score count).drop (k + 1) := by
    rw [← List.drop_eq_getElem_cons inside, List.take_append_drop]
  refine ⟨_, List.getElem?_eq_getElem inside, mem_ranked.mp (List.getElem_mem inside), ?_, ?_⟩
  · have nodup : (ranked score count).Nodup := ranked_nodup
    rw [split, List.nodup_append] at nodup
    exact fun old => nodup.2.2 _ old _ List.mem_cons_self rfl
  · intro j below left
    have sorted : (ranked score count).Pairwise (Before score) := ranked_pairwise
    have member : j ∈ ranked score count := mem_ranked.mpr below
    rw [split, List.pairwise_append, List.pairwise_cons] at sorted
    rw [split, List.mem_append, List.mem_cons] at member
    rcases member with old | same | later
    · exact absurd old left
    · exact .inr ⟨by rw [same], same.ge⟩
    · exact sorted.2.1.1 j later

/-! ## The kernels -/

/-- The scores of which some were set to minus infinity. -/
def withoutScores (score : Nat → α) (chosen : List Nat) (i : Nat) : WithBot α :=
  if i ∈ chosen then ⊥ else score i

lemma blockBest_withoutScores (p start : Nat) {chosen : List Nat} {i : Nat} (inside : i < count)
    (left : i ∉ chosen) (best : ∀ j < count, j ∉ chosen → Before score i j) :
    blockBest (2 ^ p) count (fun _ => true) start (withoutScores score chosen) =
      ((score i : WithBot α), i) := by
  have here : withoutScores score chosen i = score i := if_neg left
  rw [← here]
  refine blockBest_eq p start inside rfl (here ▸ WithBot.coe_ne_bot) fun j below _ => ?_
  by_cases old : j ∈ chosen
  · rw [here, withoutScores, if_pos old]
    exact .inl (WithBot.bot_lt_coe _)
  · rw [here, withoutScores, if_neg old, WithBot.coe_lt_coe, WithBot.coe_inj]
    exact (best j below old).imp_right fun tie => ⟨tie.1.symm, tie.2⟩

lemma blockBest_notMem (p start : Nat) {chosen : List Nat} {i : Nat} (inside : i < count)
    (left : i ∉ chosen) (best : ∀ j < count, j ∉ chosen → Before score i j) :
    blockBest (2 ^ p) count (fun j => j ∉ chosen) start (fun j => (score j : WithBot α)) =
      ((score i : WithBot α), i) := by
  refine blockBest_eq p start inside (decide_eq_true left) WithBot.coe_ne_bot
    fun j below here => ?_
  rw [WithBot.coe_lt_coe, WithBot.coe_inj]
  exact (best j below (of_decide_eq_true here)).imp_right fun tie => ⟨tie.1.symm, tie.2⟩

lemma indexerTopkKernel_eq (p offset : Nat) {k keep : Nat} (room : k + keep ≤ count) :
    indexerTopkKernel (2 ^ p) count offset keep
        (withoutScores score ((ranked score count).take k)) =
      (((ranked score count).drop k).take keep).map (offset + ·) := by
  induction keep generalizing k with
  | zero => rfl
  | succ keep ih =>
    obtain ⟨i, here, inside, left, best⟩ := @ranked_next _ _ score count k (by omega)
    have next : (ranked score count).take (k + 1) = (ranked score count).take k ++ [i] := by
      rw [List.take_add_one, here, Option.toList_some]
    have rest : (ranked score count).drop k = i :: (ranked score count).drop (k + 1) := by
      rw [List.drop_eq_getElem?_toList_append, here]
      rfl
    have removed : Function.update (withoutScores score ((ranked score count).take k)) i ⊥ =
        withoutScores score ((ranked score count).take (k + 1)) := by
      funext j
      have member : j ∈ (ranked score count).take k ++ [i] ↔
          j ∈ (ranked score count).take k ∨ j = i := by rw [List.mem_append, List.mem_singleton]
      rw [next, Function.update_apply, withoutScores, withoutScores, if_congr member rfl rfl]
      by_cases same : j = i
      · rw [if_pos same, if_pos (.inr same)]
      · rw [if_neg same]
        simp only [same, or_false]
    rw [indexerTopkKernel, blockBest_withoutScores p count inside left best]
    dsimp only
    rw [if_pos inside, removed, ih (by omega), rest]
    rfl

lemma flashmemoryTopkKernel_eq (p : Nat) {k keep : Nat} (room : k + keep ≤ count) :
    flashmemoryTopkKernel (2 ^ p) count (fun j => (score j : WithBot α)) keep
        (((ranked score count).take k).map fun i => (i, (score i : WithBot α))) =
      ((ranked score count).take (k + keep)).map fun i => (i, (score i : WithBot α)) := by
  induction keep generalizing k with
  | zero => rfl
  | succ keep ih =>
    obtain ⟨i, here, inside, left, best⟩ := @ranked_next _ _ score count k (by omega)
    have stored : (((ranked score count).take k).map fun i => (i, (score i : WithBot α))).map
        Prod.fst = (ranked score count).take k := by
      rw [List.map_map]
      exact List.map_id _
    have next : ((ranked score count).take k).map (fun i => (i, (score i : WithBot α))) ++
        [(i, (score i : WithBot α))] =
          ((ranked score count).take (k + 1)).map fun i => (i, (score i : WithBot α)) := by
      rw [List.take_add_one, here, List.map_append]
      rfl
    rw [flashmemoryTopkKernel, stored, blockBest_notMem p count inside left best]
    dsimp only
    rw [next, ih (by omega), Nat.add_right_comm, Nat.add_assoc]

/-- Both kernels store the first candidates by score and index, and no candidate twice. -/
theorem topk_ranked (score : Nat → α) {count keep : Nat} (le : keep ≤ count) (offset : Nat) :
    indexerTopkKernel 256 count offset keep (fun i => (score i : WithBot α)) =
        ((ranked score count).take keep).map (offset + ·) ∧
      flashmemoryTopkKernel 256 count (fun i => (score i : WithBot α)) keep [] =
        (((ranked score count).take keep).map fun i => (i, (score i : WithBot α))) ∧
      ((ranked score count).take keep).Nodup ∧
      ((ranked score count).take keep).length = keep := by
  have indexer := @indexerTopkKernel_eq _ _ score count 8 offset 0 keep (by omega)
  have flashmemory := @flashmemoryTopkKernel_eq _ _ score count 8 0 keep (by omega)
  have all : withoutScores score ((ranked score count).take 0) =
      fun i => (score i : WithBot α) := by
    funext i
    exact if_neg List.not_mem_nil
  rw [all, List.drop_zero] at indexer
  rw [Nat.zero_add] at flashmemory
  refine ⟨indexer, flashmemory, ranked_nodup.sublist (List.take_sublist ..), ?_⟩
  rw [List.length_take, ranked_length, Nat.min_eq_left le]

/-- Three candidates for two places; the first two have the same score. -/
theorem topk_ranked_tie :
    indexerTopkKernel 256 3 100 2 (fun i => (([5, 5, 7].getD i 0 : Nat) : WithBot Nat)) =
      ((ranked (fun i => [5, 5, 7].getD i 0) 3).take 2).map (100 + ·) :=
  (topk_ranked (fun i => [5, 5, 7].getD i 0) (by decide) 100).1

end PocketMoE.Engine
