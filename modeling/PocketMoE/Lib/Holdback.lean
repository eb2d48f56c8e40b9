import PocketMoE.Lib.Search

/-!
# Holding back what may be a mark

When a text grows at its end, what may turn out to be the start of a mark is not shown yet.
`visible mark s` is the text up to the mark, or up to where an unfinished mark may begin. It is cut at
the least place that the mark agrees with (`visible_least`), and so what is shown of a text is shown of
a longer one (`visible_prefix`).
-/

namespace PocketMoE.Lib

variable {α : Type*} [DecidableEq α]

/-- The length of the longest start of a mark, of at most `n` elements, that a text ends with. -/
def overlap (mark s : List α) : Nat → Nat
  | 0 => 0
  | n + 1 => if mark.take (n + 1) <:+ s then n + 1 else overlap mark s n

/-- The text before a mark, or before what may be the start of one. -/
def visible (mark s : List α) : List α :=
  match firstAt mark s with
  | some p => s.take p
  | none => s.take (s.length - overlap mark s (min s.length (mark.length - 1)))

variable {mark s t : List α} {k n : Nat}

lemma overlap_le : overlap mark s n ≤ n := by
  induction n with
  | zero => exact le_rfl
  | succ n ih =>
    rw [overlap]
    split_ifs
    · exact le_rfl
    · exact ih.trans (Nat.le_succ n)

lemma overlap_suffix : mark.take (overlap mark s n) <:+ s := by
  induction n with
  | zero => exact List.nil_suffix
  | succ n ih =>
    rw [overlap]
    split_ifs with here
    · exact here
    · exact ih

lemma le_overlap (le : k ≤ n) (suffix : mark.take k <:+ s) : k ≤ overlap mark s n := by
  induction n with
  | zero => exact le
  | succ n ih =>
    rw [overlap]
    split_ifs with here
    · exact le
    · rcases Nat.lt_or_eq_of_le le with lt | rfl
      · exact ih (Nat.le_of_lt_succ lt)
      · exact absurd suffix here

/-- The text behind a place and the mark agree as far as both go. -/
def Agrees (mark s : List α) (k : Nat) : Prop :=
  k ≤ s.length ∧ (s.drop k <+: mark ∨ mark <+: s.drop k)

omit [DecidableEq α] in
lemma Agrees.of_append (agrees : Agrees mark (s ++ t) k) (le : k ≤ s.length) : Agrees mark s k := by
  refine ⟨le, ?_⟩
  have split := agrees.2
  rw [List.drop_append_of_le_length le] at split
  rcases split with inside | whole
  · exact Or.inl ((List.prefix_append ..).trans inside)
  · exact List.prefix_or_prefix_of_prefix (List.prefix_append ..) whole

lemma visible_least (mark s : List α) :
    ∃ k, Agrees mark s k ∧ (∀ j, Agrees mark s j → k ≤ j) ∧ visible mark s = s.take k := by
  unfold visible
  cases first : firstAt mark s with
  | some p =>
    obtain ⟨⟨le, here⟩, before⟩ := firstAt_eq_some.mp first
    refine ⟨p, ⟨le, Or.inr here⟩, fun j agrees => Nat.le_of_not_lt fun lt => ?_, rfl⟩
    rcases agrees.2 with inside | whole
    · -- what is left behind `j` is longer than the mark
      have short := inside.length_le
      have long := here.length_le
      rw [List.length_drop] at short long
      omega
    · exact before j lt ⟨agrees.1, whole⟩
  | none =>
    have nowhere := firstAt_eq_none.mp first
    have le : overlap mark s (min s.length (mark.length - 1)) ≤ min s.length (mark.length - 1) :=
      overlap_le
    refine ⟨_, ⟨Nat.sub_le .., Or.inl ?_⟩, fun j agrees => ?_, rfl⟩
    · have suffix : mark.take (overlap mark s (min s.length (mark.length - 1))) <:+ s :=
        overlap_suffix
      have length : (mark.take (overlap mark s (min s.length (mark.length - 1)))).length =
          overlap mark s (min s.length (mark.length - 1)) :=
        List.length_take_of_le (by omega)
      rw [List.suffix_iff_eq_drop, length] at suffix
      rw [← suffix]
      exact List.take_prefix ..
    · have inside : s.drop j <+: mark :=
        agrees.2.resolve_right fun whole => nowhere j ⟨agrees.1, whole⟩
      have short : s.length - j < mark.length := by
        have le := inside.length_le
        rw [List.length_drop] at le
        refine Nat.lt_of_le_of_ne le fun eq => nowhere j ⟨agrees.1, ?_⟩
        have same : s.drop j = mark := inside.eq_of_length (by rw [List.length_drop, eq])
        rw [same]
      have start : mark.take (s.length - j) = s.drop j := by
        rw [List.prefix_iff_eq_take.mp inside, List.length_drop]
      have longest : s.length - j ≤ overlap mark s (min s.length (mark.length - 1)) := by
        refine le_overlap (by omega) ?_
        rw [start]
        exact List.drop_suffix ..
      omega

lemma visible_prefix_self (mark s : List α) : visible mark s <+: s := by
  obtain ⟨k, -, -, eq⟩ := visible_least mark s
  rw [eq]
  exact List.take_prefix ..

lemma visible_prefix (starts : s <+: t) : visible mark s <+: visible mark t := by
  obtain ⟨more, rfl⟩ := starts
  obtain ⟨k, agrees, least, eq⟩ := visible_least mark s
  obtain ⟨k', agrees', -, eq'⟩ := visible_least mark (s ++ more)
  rw [eq, eq', ← List.take_append_of_le_length agrees.1]
  refine List.take_prefix_take_left ?_
  rcases Nat.le_total k' s.length with inside | behind
  · exact least k' (agrees'.of_append inside)
  · exact agrees.1.trans behind

lemma visible_at (first : firstAt mark s = some k) : visible mark s = s.take k := by
  rw [visible, first]

lemma visible_eq_self (none : firstAt mark s = none) :
    visible mark s = s ↔ ∀ n, 0 < n → n < mark.length → ¬ mark.take n <:+ s := by
  rw [visible, none]
  dsimp only
  have le : overlap mark s (min s.length (mark.length - 1)) ≤ min s.length (mark.length - 1) :=
    overlap_le
  constructor
  · intro all n pos short suffix
    have inside := suffix.length_le
    rw [List.length_take_of_le (Nat.le_of_lt short)] at inside
    have longest : n ≤ overlap mark s (min s.length (mark.length - 1)) :=
      le_overlap (by omega) suffix
    have length := congrArg List.length all
    rw [List.length_take_of_le (Nat.sub_le ..)] at length
    omega
  · intro clear
    have nothing : overlap mark s (min s.length (mark.length - 1)) = 0 := by
      by_contra some
      exact clear _ (Nat.pos_of_ne_zero some) (by omega) overlap_suffix
    rw [nothing, Nat.sub_zero, List.take_length]

lemma visible_cut (nonempty : mark ≠ []) (first : firstAt mark t = some k) (starts : s <+: t)
    (long : k + mark.length ≤ s.length + 1) : visible mark s = t.take k := by
  have pos := List.length_pos_of_ne_nil nonempty
  obtain ⟨here, before⟩ := firstAt_eq_some.mp first
  obtain ⟨k', agrees, least, eq⟩ := visible_least mark s
  obtain ⟨more, rfl⟩ := starts
  have le : k ≤ s.length := by omega
  have upTo : k' ≤ k := least k (Agrees.of_append ⟨here.1, Or.inr here.2⟩ le)
  rcases Nat.lt_or_eq_of_le upTo with lt | rfl
  · -- what is left behind an earlier place is not shorter than the mark
    refine absurd ?_ (before k' lt)
    refine At.append ⟨agrees.1, ?_⟩ more
    rcases agrees.2 with inside | whole
    · have same := inside.eq_of_length_le (by rw [List.length_drop]; omega)
      rw [same]
    · exact whole
  · rw [eq, List.take_append_of_le_length le]

end PocketMoE.Lib
