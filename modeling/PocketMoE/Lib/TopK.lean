import Mathlib.Data.List.Nodup
import Mathlib.Data.List.Perm.Subperm
import Mathlib.Data.List.Range
import Mathlib.Data.Finset.Dedup
import Mathlib.Order.WithBot
import Mathlib.Tactic.Lemma

/-!
# Selecting the largest entries of a row

`TopK` is a selector together with what it promises: `k` different indices of the row, none of them
beaten by an index left out. Ties may go either way, and so may the order of the result.

`TopK.count_below` is the fact its users need: when the first `v` entries of a row are above all the
others, they are selected first. `TopK.repeatedMax` is a selector that computes: in each round it
takes the largest remaining entry, the first of them on a tie; `TopK.repeatedMax_map` says that it
depends on the order of the scores only.
-/

namespace PocketMoE.Lib

/-- A selector of the `k` largest entries of a row, by index. -/
structure TopK (α : Type*) [LinearOrder α] where
  select : List α → Nat → List Nat
  length_select : ∀ {row k}, k ≤ row.length → (select row k).length = k
  nodup_select : ∀ {row k}, k ≤ row.length → (select row k).Nodup
  lt_length : ∀ {row k i}, k ≤ row.length → i ∈ select row k → i < row.length
  best : ∀ {row k i j a b}, k ≤ row.length → i ∈ select row k → j ∉ select row k →
    row[i]? = some a → row[j]? = some b → b ≤ a

variable {α : Type*} [LinearOrder α]

lemma length_le_of_nodup {l : List Nat} {v : Nat} (nodup : l.Nodup) (lt : ∀ i ∈ l, i < v) :
    l.length ≤ v := by
  have sub : l ⊆ List.range v := fun i member => List.mem_range.mpr (lt i member)
  simpa using (List.subperm_of_subset nodup sub).length_le

lemma TopK.count_below (top : TopK α) {row : List α} {k v : Nat} (le : k ≤ row.length)
    (above : ∀ i j a b, i < v → v ≤ j → row[i]? = some a → row[j]? = some b → b < a) :
    ((top.select row k).filter (· < v)).length = min k v := by
  have nodup := top.nodup_select le
  have count := top.length_select le
  have few : ((top.select row k).filter (· < v)).length ≤ v :=
    length_le_of_nodup (nodup.filter _) fun i member => by
      simpa using (List.mem_filter.mp member).2
  have less := List.length_filter_le (· < v) (top.select row k)
  by_cases all : ∀ i ∈ top.select row k, i < v
  · have same : (top.select row k).filter (· < v) = top.select row k :=
      List.filter_eq_self.mpr fun i member => by simpa using all i member
    rw [same] at few ⊢
    omega
  · -- an index from `v` on is selected, so none below `v` is left out
    obtain ⟨j, selected, high⟩ : ∃ j ∈ top.select row k, v ≤ j := by simpa using all
    have jlt := top.lt_length le selected
    have sub : List.range v ⊆ (top.select row k).filter (· < v) := by
      intro i member
      have lt := List.mem_range.mp member
      rw [List.mem_filter]
      refine ⟨?_, by simpa using lt⟩
      by_contra out
      have hi := List.getElem?_eq_getElem (show i < row.length from by omega)
      have hj := List.getElem?_eq_getElem jlt
      exact absurd (top.best le selected out hj hi) (not_le.mpr (above i j _ _ lt high hi hj))
    have many := (List.subperm_of_subset List.nodup_range sub).length_le
    rw [List.length_range] at many
    omega

/-! ## Selection by repeated maximum -/

/-- The better of two candidates: the larger value, on a tie the smaller index. -/
def better (a b : WithBot α × Nat) : WithBot α × Nat :=
  if b.1 < a.1 ∨ (a.1 = b.1 ∧ a.2 < b.2) then a else b

/-- The best entry of a row whose first index is `base`, or the index after the row's last one. -/
def bestOf (base : Nat) : List (WithBot α) → WithBot α × Nat
  | [] => (⊥, base)
  | v :: rest => better (v, base) (bestOf (base + 1) rest)

/-- Take the best entry and remove it, `k` times. -/
def takeBest : List (WithBot α) → Nat → List Nat
  | _, 0 => []
  | row, k + 1 =>
    let idx := (bestOf 0 row).2
    idx :: takeBest (row.set idx ⊥) k

lemma le_bestOf {j : Nat} {row : List (WithBot α)} {v : WithBot α} (base : Nat)
    (here : row[j]? = some v) : v ≤ (bestOf base row).1 := by
  induction row generalizing j base with
  | nil => simp at here
  | cons u rest ih =>
    rw [bestOf, better]
    cases j with
    | zero =>
      obtain rfl : u = v := by simpa using here
      split_ifs with h
      · exact le_rfl
      · exact not_lt.mp fun lt => h (.inl lt)
    | succ j =>
      have le := @ih j (base + 1) (by simpa using here)
      split_ifs with h
      · rcases h with lt | ⟨e, -⟩
        · exact le.trans lt.le
        · exact le.trans e.ge
      · exact le

lemma bestOf_mem {base : Nat} {row : List (WithBot α)} (some_ : (bestOf base row).1 ≠ ⊥) :
    ∃ i, (bestOf base row).2 = base + i ∧ row[i]? = some (bestOf base row).1 := by
  induction row generalizing base with
  | nil => exact absurd rfl some_
  | cons u rest ih =>
    rw [bestOf, better] at some_ ⊢
    split_ifs at some_ ⊢ with h
    · exact ⟨0, rfl, rfl⟩
    · obtain ⟨i, e, here⟩ := ih some_
      exact ⟨i + 1, by omega, by simpa using here⟩

/-- What is left of the scores of a row once some of them are removed. -/
def masked (scores : List α) (chosen : List Nat) : List (WithBot α) :=
  scores.mapIdx fun i (score : α) => if i ∈ chosen then ⊥ else (score : WithBot α)

omit [LinearOrder α] in
@[simp] lemma getElem?_masked (scores : List α) (chosen : List Nat) (i : Nat) :
    (masked scores chosen)[i]? =
      scores[i]?.map fun score : α => if i ∈ chosen then ⊥ else (score : WithBot α) := by
  simp [masked]

omit [LinearOrder α] in
lemma masked_set (scores : List α) (chosen : List Nat) (i : Nat) :
    (masked scores chosen).set i ⊥ = masked scores (i :: chosen) := by
  apply List.ext_getElem?
  intro j
  rw [List.getElem?_set, getElem?_masked, getElem?_masked]
  by_cases here : i = j
  · subst here
    by_cases lt : i < scores.length
    · simp [masked, lt]
    · simp [masked, lt]
  · simp [here, Ne.symm here]

lemma bestOf_masked {scores : List α} {chosen : List Nat} {j : Nat} (lt : j < scores.length)
    (left : j ∉ chosen) :
    let i := (bestOf 0 (masked scores chosen)).2
    i < scores.length ∧ i ∉ chosen ∧ ∀ j a b, j ∉ chosen → scores[i]? = some a →
      scores[j]? = some b → b ≤ a := by
  have entry {j : Nat} {b : α} (hb : scores[j]? = some b) (out : j ∉ chosen) :
      (masked scores chosen)[j]? = some (b : WithBot α) := by
    simp [getElem?_masked, hb, out]
  have some_ : (bestOf 0 (masked scores chosen)).1 ≠ ⊥ := by
    have le := le_bestOf 0 (entry (List.getElem?_eq_getElem lt) left)
    exact ne_bot_of_le_ne_bot WithBot.coe_ne_bot le
  obtain ⟨i, e, here⟩ := bestOf_mem some_
  rw [Nat.zero_add] at e
  simp only [e]
  rw [getElem?_masked, Option.map_eq_some_iff] at here
  obtain ⟨a, ha, value⟩ := here
  have out : i ∉ chosen := by
    intro member
    rw [if_pos member] at value
    exact some_ value.symm
  rw [if_neg out] at value
  refine ⟨(List.getElem?_eq_some_iff.mp ha).1, out, ?_⟩
  intro j a' b left ha' hb
  obtain rfl : a = a' := Option.some.inj (ha.symm.trans ha')
  have le := le_bestOf 0 (entry hb left)
  rw [← value] at le
  exact WithBot.coe_le_coe.mp le

@[simp] lemma length_takeBest (row : List (WithBot α)) (k : Nat) : (takeBest row k).length = k := by
  induction k generalizing row with
  | zero => rfl
  | succ k ih => simp [takeBest, ih]

lemma takeBest_masked {scores : List α} {chosen : List Nat} {k : Nat} (nodup : chosen.Nodup)
    (inside : ∀ i ∈ chosen, i < scores.length) (room : chosen.length + k ≤ scores.length) :
    (takeBest (masked scores chosen) k).Nodup ∧
      (∀ i ∈ takeBest (masked scores chosen) k, i < scores.length ∧ i ∉ chosen) ∧
      ∀ i j a b, i ∈ takeBest (masked scores chosen) k → j ∉ chosen →
        j ∉ takeBest (masked scores chosen) k → scores[i]? = some a → scores[j]? = some b →
        b ≤ a := by
  induction k generalizing chosen with
  | zero => simp [takeBest]
  | succ k ih =>
    -- fewer scores were removed than there are
    obtain ⟨j, lt, left⟩ : ∃ j, j < scores.length ∧ j ∉ chosen := by
      by_contra none_
      push Not at none_
      have sub : List.range scores.length ⊆ chosen := fun j member =>
        none_ j (List.mem_range.mp member)
      have := (List.subperm_of_subset List.nodup_range sub).length_le
      rw [List.length_range] at this
      omega
    obtain ⟨ilt, out, beats⟩ := bestOf_masked lt left
    rw [takeBest, masked_set]
    generalize (bestOf 0 (masked scores chosen)).2 = i at ilt out beats
    obtain ⟨nodup', inside', best'⟩ := @ih (i :: chosen) (List.nodup_cons.mpr ⟨out, nodup⟩)
      (by simpa using ⟨ilt, inside⟩) (by simp only [List.length_cons]; omega)
    refine ⟨List.nodup_cons.mpr ⟨fun member => ?_, nodup'⟩, ?_, ?_⟩
    · exact (inside' i member).2 List.mem_cons_self
    · intro i' member
      rcases List.mem_cons.mp member with rfl | member
      · exact ⟨ilt, out⟩
      · have := inside' i' member
        exact ⟨this.1, fun old => this.2 (List.mem_cons_of_mem i old)⟩
    · intro i' j a b member left' out' ha hb
      rw [List.mem_cons, not_or] at out'
      rcases List.mem_cons.mp member with rfl | member
      · exact beats j a b left' ha hb
      · refine best' i' j a b member ?_ out'.2 ha hb
        rw [List.mem_cons, not_or]
        exact ⟨out'.1, left'⟩

lemma takeBest_row {row : List α} {k : Nat} (le : k ≤ row.length) :
    let picked := takeBest (row.map fun score : α => (score : WithBot α)) k
    picked.Nodup ∧ (∀ i ∈ picked, i < row.length) ∧
      ∀ i j a b, i ∈ picked → j ∉ picked → row[i]? = some a → row[j]? = some b → b ≤ a := by
  have whole : row.map (fun score : α => (score : WithBot α)) = masked row [] := by
    apply List.ext_getElem?
    intro i
    simp [masked]
  simp only [whole]
  obtain ⟨nodup, inside, best⟩ := @takeBest_masked _ _ row [] k List.nodup_nil (by simp) (by simpa)
  exact ⟨nodup, fun i member => (inside i member).1,
    fun i j a b member out => best i j a b member (by simp) out⟩

/-- Selection by repeated maximum. -/
def TopK.repeatedMax (α : Type*) [LinearOrder α] : TopK α where
  select := fun row k => takeBest (row.map fun score : α => (score : WithBot α)) k
  length_select := fun _ => length_takeBest _ _
  nodup_select := fun le => (takeBest_row le).1
  lt_length := fun le member => (takeBest_row le).2.1 _ member
  best := fun le member out ha hb => (takeBest_row le).2.2 _ _ _ _ member out ha hb

/-! ## What a selection depends on -/

section Map

variable {β : Type*} [LinearOrder β] {f : α → β}

lemma better_map (mono : StrictMono f) (a b : WithBot α × Nat) :
    better (a.1.map f, a.2) (b.1.map f, b.2) = ((better a b).1.map f, (better a b).2) := by
  have strict := mono.withBot_map
  have same : (b.1.map f < a.1.map f ∨ a.1.map f = b.1.map f ∧ a.2 < b.2) ↔
      (b.1 < a.1 ∨ a.1 = b.1 ∧ a.2 < b.2) := by
    rw [strict.lt_iff_lt, strict.injective.eq_iff]
  unfold better
  by_cases first : b.1 < a.1 ∨ a.1 = b.1 ∧ a.2 < b.2
  · rw [if_pos first, if_pos (same.mpr first)]
  · rw [if_neg first, if_neg (mt same.mp first)]

lemma bestOf_map (mono : StrictMono f) (base : Nat) (row : List (WithBot α)) :
    bestOf base (row.map (WithBot.map f)) = ((bestOf base row).1.map f, (bestOf base row).2) := by
  induction row generalizing base with
  | nil => rfl
  | cons v rest ih =>
    rw [List.map_cons, bestOf, ih, bestOf]
    exact better_map mono (v, base) (bestOf (base + 1) rest)

lemma takeBest_map (mono : StrictMono f) (row : List (WithBot α)) (k : Nat) :
    takeBest (row.map (WithBot.map f)) k = takeBest row k := by
  induction k generalizing row with
  | zero => rfl
  | succ k ih =>
    rw [takeBest, takeBest, bestOf_map mono, ← ih, List.map_set]
    rfl

/-- Selection depends on the order of the scores only. -/
theorem TopK.repeatedMax_map (mono : StrictMono f) (row : List α) (k : Nat) :
    (TopK.repeatedMax β).select (row.map f) k = (TopK.repeatedMax α).select row k := by
  have same : (row.map f).map (fun score : β => (score : WithBot β)) =
      (row.map fun score : α => (score : WithBot α)).map (WithBot.map f) := by
    rw [List.map_map, List.map_map]
    rfl
  show takeBest _ k = takeBest _ k
  rw [same, takeBest_map mono]

end Map

lemma bestOf_head {base : Nat} {v : WithBot α} {rest : List (WithBot α)} (le : ∀ u ∈ rest, u ≤ v) :
    (bestOf base (v :: rest)).2 = base := by
  have later : ∀ (rest : List (WithBot α)) base, base ≤ (bestOf base rest).2 := by
    intro rest
    induction rest with
    | nil => exact fun base => le_rfl
    | cons u rest ih =>
      intro base
      rw [bestOf, better]
      split_ifs
      · exact le_rfl
      · exact (Nat.le_succ base).trans (ih (base + 1))
  have below : (bestOf (base + 1) rest).1 ≤ v := by
    by_contra above
    have some_ : (bestOf (base + 1) rest).1 ≠ ⊥ := ne_bot_of_gt (not_le.mp above)
    obtain ⟨i, -, here⟩ := bestOf_mem some_
    exact above (le _ (List.mem_of_getElem? here))
  rw [bestOf, better, if_pos]
  rcases below.lt_or_eq with lt | eq
  · exact Or.inl lt
  · exact Or.inr ⟨eq.symm, later rest (base + 1)⟩

lemma TopK.zero_mem {score : α} {rest : List α} {k : Nat} (le : ∀ u ∈ rest, u ≤ score)
    (pos : 0 < k) : 0 ∈ (TopK.repeatedMax α).select (score :: rest) k := by
  obtain ⟨k, rfl⟩ := Nat.exists_eq_succ_of_ne_zero pos.ne'
  have best : (bestOf 0 ((score :: rest).map fun s : α => (s : WithBot α))).2 = 0 := by
    rw [List.map_cons]
    refine bestOf_head fun u member => ?_
    obtain ⟨s, here, rfl⟩ := List.mem_map.mp member
    exact WithBot.coe_le_coe.mpr (le s here)
  show 0 ∈ takeBest _ (k + 1)
  rw [takeBest, best]
  exact List.mem_cons_self ..

lemma TopK.zero_notMem (top : TopK α) {score : α} {rest : List α} {k : Nat}
    (lt : ∀ u ∈ rest, score < u) (room : k ≤ rest.length) :
    0 ∉ top.select (score :: rest) k := by
  have le : k ≤ (score :: rest).length := room.trans (Nat.le_succ _)
  intro chosen
  -- some other index is left out
  obtain ⟨j, inside, out⟩ : ∃ j, j < (score :: rest).length ∧ j ∉ top.select (score :: rest) k := by
    by_contra all
    push Not at all
    have sub : List.range (score :: rest).length ⊆ top.select (score :: rest) k := fun j member =>
      all j (List.mem_range.mp member)
    have few := (List.subperm_of_subset List.nodup_range sub).length_le
    rw [List.length_range, top.length_select le, List.length_cons] at few
    omega
  cases j with
  | zero => exact out chosen
  | succ j =>
    have inside' : j < rest.length := Nat.lt_of_succ_lt_succ inside
    have here : (score :: rest)[j + 1]? = some rest[j] := List.getElem?_eq_getElem inside'
    exact absurd (top.best le chosen out rfl here) (not_le.mpr (lt _ (List.getElem_mem _)))

end PocketMoE.Lib
