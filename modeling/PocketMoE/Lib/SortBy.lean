import Mathlib.Data.List.Forall2
import Mathlib.Data.List.Infix
import Mathlib.Order.Nat
import Mathlib.Tactic.Lemma

/-!
# Stable sorting by a key

`sortBy key` sorts a list by numbers and keeps the order of elements with the same number. It
commutes with filters (`sortBy_filter`), and elements with the least numbers stay at the front
(`sortBy_append_least`).

`SortedAmong p` is a list in which the elements with `p` are sorted among the places that they have
together, and all others stay. A sort of the whole list does so, if the others have number 0,
exactly if no other number stands before one of them (`sortedAmong_sortBy_iff`).
-/

namespace PocketMoE.Lib

variable {α : Type*} {key : α → Nat} {l m : List α} {a : α}

/-- The list sorted by a number of each element. -/
def sortBy (key : α → Nat) (l : List α) : List α := l.mergeSort fun a b => key a ≤ key b

lemma key_trans : ∀ a b c : α, decide (key a ≤ key b) → decide (key b ≤ key c) →
    decide (key a ≤ key c) := by
  intro a b c first second
  exact decide_eq_true ((of_decide_eq_true first).trans (of_decide_eq_true second))

lemma key_total : ∀ a b : α, decide (key a ≤ key b) || decide (key b ≤ key a) := by
  intro a b
  rw [Bool.or_eq_true, decide_eq_true_eq, decide_eq_true_eq]
  exact Nat.le_total ..

lemma sortBy_perm (key : α → Nat) (l : List α) : (sortBy key l).Perm l := List.mergeSort_perm ..

lemma pairwise_sortBy (key : α → Nat) (l : List α) :
    (sortBy key l).Pairwise fun a b => key a ≤ key b :=
  (List.pairwise_mergeSort key_trans key_total l).imp of_decide_eq_true

lemma sortBy_of_pairwise (sorted : l.Pairwise fun a b => key a ≤ key b) : sortBy key l = l :=
  List.mergeSort_of_pairwise (sorted.imp decide_eq_true)

lemma sortBy_eq_self_iff : sortBy key l = l ↔ l.Pairwise fun a b => key a ≤ key b :=
  ⟨fun eq => eq ▸ pairwise_sortBy key l, sortBy_of_pairwise⟩

lemma sortBy_cons (key : α → Nat) (a : α) (l : List α) :
    ∃ l₁ l₂, sortBy key (a :: l) = l₁ ++ a :: l₂ ∧ sortBy key l = l₁ ++ l₂ ∧
      (∀ b ∈ l₁, key b < key a) ∧ ∀ b ∈ l₂, key a ≤ key b := by
  obtain ⟨l₁, l₂, whole, rest, less⟩ := List.mergeSort_cons (@key_trans _ key) key_total a l
  have sorted := pairwise_sortBy key (a :: l)
  rw [sortBy, whole, List.pairwise_append, List.pairwise_cons] at sorted
  refine ⟨l₁, l₂, whole, rest, fun b member => ?_, sorted.2.1.1⟩
  simpa using less b member

lemma cut_unique {n : Nat} {l₁ l₂ m₁ m₂ : List α} (eq : l₁ ++ l₂ = m₁ ++ m₂)
    (less : ∀ b ∈ l₁, key b < n) (more : ∀ b ∈ l₂, n ≤ key b) (less' : ∀ b ∈ m₁, key b < n)
    (more' : ∀ b ∈ m₂, n ≤ key b) : l₁ = m₁ ∧ l₂ = m₂ := by
  have front {l₁ l₂ : List α} (less : ∀ b ∈ l₁, key b < n) (more : ∀ b ∈ l₂, n ≤ key b) :
      (l₁ ++ l₂).filter (fun b => key b < n) = l₁ := by
    have all : l₁.filter (fun b => key b < n) = l₁ :=
      List.filter_eq_self.mpr fun b member => decide_eq_true (less b member)
    have none : l₂.filter (fun b => key b < n) = [] :=
      List.filter_eq_nil_iff.mpr fun b member => by simpa using more b member
    rw [List.filter_append, all, none, List.append_nil]
  have same : l₁ = m₁ := by
    rw [← front less more, eq, front less' more']
  subst same
  exact ⟨rfl, List.append_cancel_left eq⟩

lemma sortBy_filter (key : α → Nat) (p : α → Bool) (l : List α) :
    (sortBy key l).filter p = sortBy key (l.filter p) := by
  induction l with
  | nil => rw [sortBy, List.mergeSort_nil, List.filter_nil, sortBy, List.mergeSort_nil]
  | cons a l ih =>
    obtain ⟨l₁, l₂, whole, rest, less, more⟩ := sortBy_cons key a l
    rw [rest, List.filter_append] at ih
    by_cases keep : p a
    · obtain ⟨m₁, m₂, whole', rest', less', more'⟩ := sortBy_cons key a (l.filter p)
      rw [rest'] at ih
      obtain ⟨front, back⟩ := cut_unique ih
        (fun b member => less b (List.mem_filter.mp member).1)
        (fun b member => more b (List.mem_filter.mp member).1) less' more'
      rw [whole, List.filter_append, List.filter_cons_of_pos keep, List.filter_cons_of_pos keep,
        whole', front, back]
    · rw [whole, List.filter_append, List.filter_cons_of_neg keep, List.filter_cons_of_neg keep, ih]

lemma sortBy_append_least (least : ∀ a ∈ l, ∀ b ∈ l ++ m, key a ≤ key b) :
    sortBy key (l ++ m) = l ++ sortBy key m := by
  induction l with
  | nil => rfl
  | cons a l ih =>
    obtain ⟨l₁, l₂, whole, rest, less, -⟩ := sortBy_cons key a (l ++ m)
    have within : ∀ b ∈ l₁, b ∈ l ++ m := fun b member =>
      (sortBy_perm key (l ++ m)).subset (rest ▸ List.mem_append_left _ member)
    have none : l₁ = [] := by
      refine List.eq_nil_iff_forall_not_mem.mpr fun b member => ?_
      have le := least a List.mem_cons_self b (List.mem_cons_of_mem _ (within b member))
      exact absurd (less b member) (Nat.not_lt.mpr le)
    have next := ih fun b member c later =>
      least b (List.mem_cons_of_mem _ member) c (List.mem_cons_of_mem _ later)
    rw [none, List.nil_append] at whole rest
    rw [List.cons_append, whole, ← rest, next, List.cons_append]

/-! ## Sorting some of the elements -/

variable {p : α → Prop} [DecidablePred p]

/-- The elements with `p` are sorted among their places, and the others are where they were. -/
structure SortedAmong (p : α → Prop) [DecidablePred p] (key : α → Nat) (l m : List α) : Prop where
  places : List.Forall₂ (fun a b => (p b ↔ p a) ∧ (¬ p a → b = a)) l m
  sorted : m.filter p = sortBy key (l.filter p)

omit [DecidablePred p] in
lemma places_of_forall (length : l.length = m.length) (all : ∀ a ∈ l, p a) (all' : ∀ a ∈ m, p a) :
    List.Forall₂ (fun a b => (p b ↔ p a) ∧ (¬ p a → b = a)) l m := by
  refine List.forall₂_iff_zip.mpr ⟨length, fun member => ?_⟩
  obtain ⟨first, second⟩ := List.of_mem_zip member
  exact ⟨iff_of_true (all' _ second) (all _ first), fun other => absurd (all _ first) other⟩

omit [DecidablePred p] in
lemma places_refl (l : List α) : List.Forall₂ (fun a b => (p b ↔ p a) ∧ (¬ p a → b = a)) l l :=
  List.forall₂_same.mpr fun _ _ => ⟨Iff.rfl, fun _ => rfl⟩

lemma countP_of_places (places : List.Forall₂ (fun a b => (p b ↔ p a) ∧ (¬ p a → b = a)) l m) :
    l.countP (fun a => ¬ p a) = m.countP (fun a => ¬ p a) := by
  induction places with
  | nil => rfl
  | cons here _ ih =>
    rw [List.countP_cons, List.countP_cons, ih]
    simp only [here.1]

lemma exists_front (low : ∀ a, ¬ p a → key a = 0)
    (before : l.Pairwise fun a b => p b ∨ key a = 0) :
    ∃ front rest, l = front ++ rest ∧ (∀ a ∈ front, key a = 0) ∧ ∀ a ∈ rest, p a := by
  induction l with
  | nil => exact ⟨[], [], rfl, nofun, nofun⟩
  | cons a l ih =>
    obtain ⟨first, later⟩ := List.pairwise_cons.mp before
    by_cases all : ∀ b ∈ l, p b
    · by_cases here : p a
      · exact ⟨[], a :: l, rfl, nofun, List.forall_mem_cons.mpr ⟨here, all⟩⟩
      · exact ⟨[a], l, rfl, List.forall_mem_singleton.mpr (low a here), all⟩
    · push Not at all
      obtain ⟨b, member, other⟩ := all
      obtain ⟨front, rest, rfl, least, sorted⟩ := ih later
      have least' := (first b member).resolve_left other
      exact ⟨a :: front, rest, rfl, List.forall_mem_cons.mpr ⟨least', least⟩, sorted⟩

lemma least_before (low : ∀ a, ¬ p a → key a = 0) {l₁ l₂ m₁ m₂ : List α} {x : α}
    (sorted : sortBy key (l₁ ++ x :: l₂) = m₁ ++ x :: m₂) (other : ¬ p x)
    (places : List.Forall₂ (fun a b => (p b ↔ p a) ∧ (¬ p a → b = a)) l₁ m₁) :
    ∀ a ∈ l₁, key a = 0 := by
  have zero := low x other
  have ordered := pairwise_sortBy key (l₁ ++ x :: l₂)
  rw [sorted, List.pairwise_append] at ordered
  have front : ∀ a ∈ m₁, key a = 0 := fun a member =>
    Nat.le_zero.mp (zero ▸ ordered.2.2 a member x List.mem_cons_self)
  -- the elements with number 0 stand in the sorted list as they did before
  have same : l₁.filter (key · = 0) ++ x :: l₂.filter (key · = 0) =
      m₁ ++ x :: m₂.filter (key · = 0) := by
    have flat : ((l₁ ++ x :: l₂).filter (key · = 0)).Pairwise fun a b => key a ≤ key b := by
      refine List.pairwise_iff_forall_sublist.mpr fun {a b} within => ?_
      have first := (List.mem_filter.mp (within.subset List.mem_cons_self)).2
      rw [of_decide_eq_true first]
      exact Nat.zero_le _
    have kept := sortBy_filter key (fun a => decide (key a = 0)) (l₁ ++ x :: l₂)
    rw [sortBy_of_pairwise flat, sorted] at kept
    simp only [List.filter_append, List.filter_cons, zero, decide_true, if_true] at kept
    rw [← kept, List.filter_eq_self.mpr fun a member => decide_eq_true (front a member)]
  -- and as many others stand before the element
  have count : (l₁.filter (key · = 0)).countP (fun a => ¬ p a) = m₁.countP (fun a => ¬ p a) := by
    rw [← countP_of_places places, List.countP_filter]
    refine List.countP_congr fun a _ => ?_
    simp only [decide_not, Bool.and_eq_true, Bool.not_eq_true', decide_eq_false_iff_not,
      decide_eq_true_eq, and_iff_left_iff_imp]
    exact low a
  have length := places.length_eq
  have le : m₁.length ≤ (l₁.filter (key · = 0)).length := by
    by_contra short
    have starts : l₁.filter (key · = 0) ++ [x] <+: m₁ := by
      refine List.prefix_of_prefix_length_le ⟨l₂.filter (key · = 0), ?_⟩
        (List.prefix_append m₁ (x :: m₂.filter (key · = 0))) ?_
      · rw [← same, List.append_assoc, List.singleton_append]
      · rw [List.length_append, List.length_singleton]
        omega
    have more := starts.sublist.countP_le (p := fun a => ¬ p a)
    rw [List.countP_append, List.countP_singleton, if_pos (decide_eq_true other)] at more
    omega
  have all := List.length_filter_eq_length_iff.mp
    (Nat.le_antisymm (List.length_filter_le ..) (length ▸ le))
  exact fun a member => of_decide_eq_true (all a member)

/-- A sort of the whole list sorts the elements with `p` among their places exactly if no element
that is not least stands before another. -/
theorem sortedAmong_sortBy_iff (low : ∀ a, ¬ p a → key a = 0) :
    SortedAmong p key l (sortBy key l) ↔ l.Pairwise fun a b => p b ∨ key a = 0 := by
  constructor
  · intro among
    refine List.pairwise_iff_getElem.mpr fun i j hi hj lt => ?_
    refine or_iff_not_imp_left.mpr fun other => ?_
    have split : l.take j ++ l[j] :: l.drop (j + 1) = l := by
      rw [← List.drop_eq_getElem_cons hj, List.take_append_drop]
    have front := List.forall₂_take j among.places
    have back := List.forall₂_drop j among.places
    rw [List.drop_eq_getElem_cons hj, List.forall₂_cons_left_iff] at back
    obtain ⟨y, rest, ⟨-, stays⟩, -, eq⟩ := back
    rw [stays other] at eq
    have sorted : sortBy key (l.take j ++ l[j] :: l.drop (j + 1)) =
        (sortBy key l).take j ++ l[j] :: rest := by
      rw [split, ← eq, List.take_append_drop]
    exact least_before low sorted other front _
      (List.mem_take_iff_getElem.mpr ⟨i, Nat.lt_min.mpr ⟨lt, hi⟩, rfl⟩)
  · intro before
    refine ⟨?_, sortBy_filter ..⟩
    obtain ⟨front, rest, rfl, least, all⟩ := exists_front low before
    rw [sortBy_append_least fun a member b _ => by rw [least a member]; exact Nat.zero_le _]
    refine List.rel_append (places_refl front) (places_of_forall ?_ all fun a member => ?_)
    · exact (sortBy_perm key rest).length_eq.symm
    · exact all a ((sortBy_perm key rest).subset member)

end PocketMoE.Lib
