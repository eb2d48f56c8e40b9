import PocketMoE.Lib.EvenCut
import PocketMoE.Lib.Loop

/-!
# Groups, one after the other

A compressed table (`Csr`) has the entries of all groups in one list, and for each group the place
where it starts. `Csr.Groups` says that it groups the entries of a list by a key. Then no entry is
lost or invented (`Groups.entries`), and a sum over the groups is a sum over the list
(`Groups.sum`). A list that is sorted by the key, with the places of the keys in it, is such a table
(`groups_of_sorted`).
-/

namespace PocketMoE.Lib
open PocketMoE.Tensor

variable {α β : Type*}

/-- Entries in groups, and where the groups start. -/
structure Csr (α : Type*) where
  entries : List α
  starts : List Nat

namespace Csr

/-- Where a group starts. -/
def start (g : Csr α) (e : Nat) : Nat := g.starts.getD e 0

/-- The entries of a group. -/
def segment (g : Csr α) (e : Nat) : List α := slice g.entries (g.start e) (g.start (e + 1))

/-- The entries of `l` with a key, one group for each of `n` keys. -/
structure Groups (g : Csr α) (key : β → Option Nat) (val : β → α) (n : Nat) (l : List β) :
    Prop where
  size : g.starts.length = n + 1
  first : g.start 0 = 0
  mono : ∀ e < n, g.start e ≤ g.start (e + 1)
  last : g.start n = g.entries.length
  segment : ∀ e < n, (g.segment e).Perm ((bucket key e l).map val)

end Csr

/-! ## Buckets -/

variable {key : β → Option Nat} {val : β → α} {n : Nat} {l : List β}

lemma flatMap_bucket_perm (key : β → Option Nat) (n : Nat) (l : List β) :
    ((List.range n).flatMap fun e => bucket key e l).Perm
      (l.filter fun x => ∃ e < n, key x = some e) := by
  induction n with
  | zero => simp
  | succ n ih =>
    have split := List.filter_append_perm (fun x => decide (∃ e < n, key x = some e))
      (l.filter fun x => ∃ e < n + 1, key x = some e)
    rw [List.filter_filter, List.filter_filter] at split
    have low : l.filter (fun x => decide (∃ e < n, key x = some e) &&
        decide (∃ e < n + 1, key x = some e)) = l.filter fun x => ∃ e < n, key x = some e := by
      refine List.filter_congr fun x _ => ?_
      cases key x with
      | none => simp
      | some a =>
        rw [Bool.eq_iff_iff]
        simp only [Option.some.injEq, exists_eq_right', Bool.and_eq_true, decide_eq_true_eq]
        omega
    have high : l.filter (fun x => !decide (∃ e < n, key x = some e) &&
        decide (∃ e < n + 1, key x = some e)) = bucket key n l := by
      refine List.filter_congr fun x _ => ?_
      cases key x with
      | none => simp
      | some a =>
        rw [Bool.eq_iff_iff]
        simp only [Option.some.injEq, exists_eq_right', Bool.and_eq_true, Bool.not_eq_true',
          decide_eq_true_eq, decide_eq_false_iff_not]
        omega
    rw [low, high] at split
    rw [List.range_succ, List.flatMap_append, List.flatMap_singleton]
    exact (ih.append_right _).trans split

namespace Csr.Groups

variable {g : Csr α}

lemma flatMap_segment (groups : g.Groups key val n l) :
    (List.range n).flatMap g.segment = g.entries := by
  have all := flatMap_cuts groups.first g.entries groups.mono
  rwa [groups.last, List.take_length] at all

lemma entries (groups : g.Groups key val n l) :
    g.entries.Perm ((l.filter fun x => ∃ e < n, key x = some e).map val) := by
  rw [← groups.flatMap_segment]
  have each : ((List.range n).flatMap g.segment).Perm
      ((List.range n).flatMap fun e => (bucket key e l).map val) :=
    List.Perm.flatMap_left _ fun e member => groups.segment e (List.mem_range.mp member)
  refine each.trans ?_
  rw [← List.map_flatMap]
  exact (flatMap_bucket_perm key n l).map val

lemma sum {M : Type*} [AddCommMonoid M] (groups : g.Groups key val n l) (f : Nat → α → M) :
    ((List.range n).map fun e => ((g.segment e).map (f e)).sum).sum =
      (l.map fun x => match key x with
        | some e => if e < n then f e (val x) else 0
        | none => 0).sum := by
  let term := fun x => match key x with
    | some e => f e (val x)
    | none => 0
  have each : ∀ e ∈ List.range n,
      ((g.segment e).map (f e)).sum = ((bucket key e l).map term).sum := by
    intro e member
    rw [((groups.segment e (List.mem_range.mp member)).map (f e)).sum_eq, List.map_map]
    refine congrArg List.sum (List.map_congr_left fun x inside => ?_)
    have here : key x = some e := by simpa using (List.mem_filter.mp inside).2
    simp only [term, here, Function.comp_apply]
  rw [List.map_congr_left each, sum_buckets]
  refine congrArg List.sum (List.map_congr_left fun x _ => ?_)
  cases here : key x with
  | none => simp
  | some e => simp [term, here]

end Csr.Groups

/-! ## Sorted lists -/

variable {rank : β → Nat} {s : List β}

lemma filter_lt_eq_nil {x : β} (sorted : (x :: s).Pairwise fun x y => rank x ≤ rank y) {b : Nat}
    (above : ¬ rank x < b) : (x :: s).filter (rank · < b) = [] := by
  rw [List.filter_eq_nil_iff]
  intro y member
  rcases List.mem_cons.mp member with rfl | later
  · simpa using above
  · have least := (List.pairwise_cons.mp sorted).1 y later
    simpa using (Nat.not_lt.mp above).trans least

lemma take_countP (sorted : s.Pairwise fun x y => rank x ≤ rank y) (b : Nat) :
    s.take (s.countP (rank · < b)) = s.filter (rank · < b) := by
  induction s with
  | nil => rfl
  | cons x s ih =>
    by_cases below : rank x < b
    · rw [List.countP_cons_of_pos (by simpa using below), List.take_succ_cons,
        ih (List.pairwise_cons.mp sorted).2, List.filter_cons_of_pos (by simpa using below)]
    · rw [List.countP_eq_length_filter, filter_lt_eq_nil sorted below, List.length_nil,
        List.take_zero]

lemma drop_countP (sorted : s.Pairwise fun x y => rank x ≤ rank y) (b : Nat) :
    s.drop (s.countP (rank · < b)) = s.filter fun x => ¬ rank x < b := by
  induction s with
  | nil => rfl
  | cons x s ih =>
    by_cases below : rank x < b
    · rw [List.countP_cons_of_pos (by simpa using below), List.drop_succ_cons,
        ih (List.pairwise_cons.mp sorted).2, List.filter_cons_of_neg (by simpa using below)]
    · have none := filter_lt_eq_nil sorted below
      rw [List.countP_eq_length_filter, none, List.length_nil, List.drop_zero]
      refine (List.filter_eq_self.mpr fun y member => ?_).symm
      simpa using List.filter_eq_nil_iff.mp none y member

lemma slice_countP (sorted : s.Pairwise fun x y => rank x ≤ rank y) (e : Nat) :
    slice s (s.countP (rank · < e)) (s.countP (rank · < e + 1)) = s.filter (rank · = e) := by
  have front : (s.filter (rank · < e + 1)).countP (rank · < e) = s.countP (rank · < e) := by
    rw [List.countP_filter]
    refine List.countP_congr fun x _ => ?_
    simp only [Bool.and_eq_true, decide_eq_true_eq]
    omega
  rw [slice, take_countP sorted, ← front, drop_countP (sorted.filter _), List.filter_filter]
  refine List.filter_congr fun x _ => ?_
  rw [Bool.eq_iff_iff]
  simp only [Bool.and_eq_true, decide_eq_true_eq]
  omega

lemma countP_lt_succ (rank : β → Nat) (s : List β) (b : Nat) :
    s.countP (rank · < b + 1) = s.countP (rank · < b) + s.countP (rank · = b) := by
  induction s with
  | nil => rfl
  | cons x s ih =>
    simp only [List.countP_cons, decide_eq_true_eq, ih]
    split_ifs <;> omega

lemma sum_countP (rank : β → Nat) (s : List β) (b : Nat) :
    ((List.range b).map fun e => s.countP (rank · = e)).sum = s.countP (rank · < b) := by
  induction b with
  | zero => simp
  | succ b ih =>
    rw [List.range_succ, List.map_append, List.sum_append, ih, List.map_singleton,
      List.sum_singleton, countP_lt_succ]

lemma groups_of_sorted (val : β → α) (perm : s.Perm (l.filter fun x => (key x).isSome))
    (ranks : ∀ x ∈ l, ∀ e, key x = some e → rank x = e ∧ e < n)
    (sorted : s.Pairwise fun x y => rank x ≤ rank y) :
    Csr.Groups ⟨s.map val, (List.range (n + 1)).map fun b => s.countP (rank · < b)⟩ key val n
      l := by
  have start : ∀ b ≤ n, Csr.start ⟨s.map val, (List.range (n + 1)).map fun b =>
      s.countP (rank · < b)⟩ b = s.countP (rank · < b) := by
    intro b le
    rw [Csr.start, List.getD_eq_getElem?_getD, List.getElem?_map,
      List.getElem?_range (Nat.lt_succ_of_le le)]
    rfl
  have keyed : ∀ x ∈ s, ∃ e, key x = some e ∧ rank x = e ∧ e < n := by
    intro x member
    obtain ⟨member, some_⟩ := List.mem_filter.mp (perm.mem_iff.mp member)
    obtain ⟨e, here⟩ := Option.isSome_iff_exists.mp some_
    exact ⟨e, here, ranks x member e here⟩
  refine ⟨by simp, ?_, fun e less => ?_, ?_, fun e less => ?_⟩
  · rw [start 0 n.zero_le]
    simp
  · rw [start e less.le, start (e + 1) less]
    refine List.countP_mono_left fun x _ below => ?_
    simp only [decide_eq_true_eq] at below ⊢
    omega
  · rw [start n le_rfl, List.length_map, List.countP_eq_length]
    intro x member
    obtain ⟨e, -, rank_, less⟩ := keyed x member
    simpa [rank_] using less
  · rw [Csr.segment, start e less.le, start (e + 1) less]
    have part := congrArg (List.map val) (slice_countP sorted e)
    rw [slice, List.map_drop, List.map_take] at part
    rw [slice, part]
    refine ((perm.filter _).map val).trans (List.Perm.of_eq ?_)
    rw [List.filter_filter, bucket]
    refine congrArg (List.map val) (List.filter_congr fun x member => ?_)
    cases here : key x with
    | none => simp
    | some a =>
      obtain ⟨rank_, -⟩ := ranks x member a here
      simp [rank_]

end PocketMoE.Lib
