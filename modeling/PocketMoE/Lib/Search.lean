import Mathlib.Data.List.Infix
import Mathlib.Order.Nat
import Mathlib.Tactic.Lemma

/-!
# Searching for a pattern

`At pattern l p` says that a pattern stands in a list at the place `p`, and `firstAt` finds the first
such place. A pattern that is found stays where it is when the list grows (`At.append`), and one that
ends inside the first part of a list was there before (`At.of_append`). It does not stand across an
element that it does not have (`At.separator`).

`Least P` are the results of a search for the first number with a property. Two of them are the same
(`Least.unique`), and the smaller one of two is the result for either property (`Least.or`).
-/

namespace PocketMoE.Lib

variable {α : Type*}

/-- The pattern stands at a place. -/
def At (pattern l : List α) (p : Nat) : Prop := p ≤ l.length ∧ pattern <+: l.drop p

variable {pattern l m : List α} {p q : Nat}

lemma at_zero : At pattern l 0 ↔ pattern <+: l := by
  rw [At, List.drop_zero]
  exact and_iff_right (Nat.zero_le _)

lemma at_succ {c : α} : At pattern (c :: l) (p + 1) ↔ At pattern l p := by
  rw [At, At, List.length_cons, List.drop_succ_cons, Nat.succ_le_succ_iff]

lemma at_iff : At pattern l p ↔ ∃ before after, l = before ++ (pattern ++ after) ∧
    before.length = p := by
  constructor
  · rintro ⟨le, rest, eq⟩
    refine ⟨l.take p, rest, ?_, List.length_take_of_le le⟩
    rw [eq, List.take_append_drop]
  · rintro ⟨before, after, rfl, rfl⟩
    refine ⟨?_, after, ?_⟩
    · rw [List.length_append]
      exact Nat.le_add_right ..
    · rw [List.drop_left]

lemma At.length_le (here : At pattern l p) : p + pattern.length ≤ l.length := by
  obtain ⟨before, after, rfl, rfl⟩ := at_iff.mp here
  rw [List.length_append, List.length_append]
  omega

lemma At.append (here : At pattern l p) (m : List α) : At pattern (l ++ m) p := by
  obtain ⟨before, after, rfl, rfl⟩ := at_iff.mp here
  exact at_iff.mpr ⟨before, after ++ m, by simp only [List.append_assoc], rfl⟩

lemma At.of_append (here : At pattern (l ++ m) p) (inside : p + pattern.length ≤ l.length) :
    At pattern l p := by
  refine ⟨by omega, ?_⟩
  have le : p ≤ l.length := by omega
  have whole := here.2
  rw [List.drop_append_of_le_length le] at whole
  refine List.prefix_of_prefix_length_le whole (List.prefix_append ..) ?_
  rw [List.length_drop]
  omega

lemma at_append_right : At pattern (l ++ m) (l.length + p) ↔ At pattern m p := by
  rw [At, At, List.length_append, Nat.add_le_add_iff_left, List.drop_append, Nat.add_sub_cancel_left,
    List.drop_of_length_le (Nat.le_add_right ..), List.nil_append]

lemma At.of_append_right (here : At pattern (l ++ m) p) (le : l.length ≤ p) :
    At pattern m (p - l.length) := by
  obtain ⟨k, rfl⟩ := Nat.exists_eq_add_of_le le
  rw [Nat.add_sub_cancel_left]
  exact at_append_right.mp here

lemma At.inner {before after : List α} (here : At (before ++ (pattern ++ after)) l p) :
    At pattern l (p + before.length) := by
  obtain ⟨left, right, rfl, rfl⟩ := at_iff.mp here
  refine at_iff.mpr ⟨left ++ before, after ++ right, ?_, List.length_append⟩
  simp only [List.append_assoc]

lemma infix_iff_at : pattern <:+: l ↔ ∃ p, At pattern l p := by
  constructor
  · rintro ⟨before, after, eq⟩
    exact ⟨before.length, at_iff.mpr ⟨before, after, by rw [← eq, List.append_assoc], rfl⟩⟩
  · rintro ⟨p, here⟩
    obtain ⟨before, after, eq, -⟩ := at_iff.mp here
    exact ⟨before, after, by rw [eq, List.append_assoc]⟩

lemma At.separator {q : α} (here : At pattern (l ++ q :: m) p) (outside : q ∉ pattern) :
    At pattern l p ∨ l.length < p ∧ At pattern m (p - (l.length + 1)) := by
  by_cases inside : p + pattern.length ≤ l.length
  · exact Or.inl (here.of_append inside)
  by_cases behind : l.length < p
  · have split : l ++ q :: m = (l ++ [q]) ++ m := List.append_cons ..
    rw [split] at here
    have le : (l ++ [q]).length ≤ p := by
      rwa [List.length_append]
    have there := here.of_append_right le
    rw [List.length_append] at there
    exact Or.inr ⟨behind, there⟩
  · have le : p ≤ l.length := Nat.le_of_not_lt behind
    have whole := here.2
    rw [List.drop_append_of_le_length le, List.append_cons] at whole
    have long : (l.drop p ++ [q]).length ≤ pattern.length := by
      rw [List.length_append, List.length_drop, List.length_singleton]
      omega
    have within := List.prefix_of_prefix_length_le (List.prefix_append ..) whole long
    exact absurd (within.subset (List.mem_append_right _ List.mem_cons_self)) outside

lemma not_infix_separator {q : α} (outside : q ∉ pattern) (left : ¬ pattern <:+: l)
    (right : ¬ pattern <:+: m) : ¬ pattern <:+: l ++ q :: m := by
  intro within
  obtain ⟨p, here⟩ := infix_iff_at.mp within
  rcases here.separator outside with there | ⟨-, there⟩
  · exact left (infix_iff_at.mpr ⟨_, there⟩)
  · exact right (infix_iff_at.mpr ⟨_, there⟩)

lemma At.skip (here : At pattern (l ++ m) p) (nonempty : pattern ≠ [])
    (outside : ∀ c ∈ l, c ∉ pattern) : l.length ≤ p := by
  by_contra inside
  obtain ⟨c, rest, rfl⟩ := List.exists_cons_of_ne_nil nonempty
  obtain ⟨before, after, eq, rfl⟩ := at_iff.mp here
  have start : before ++ [c] <+: l := by
    refine List.prefix_of_prefix_length_le ⟨rest ++ after, ?_⟩ (List.prefix_append l m) ?_
    · rw [eq, List.append_assoc, List.singleton_append, List.cons_append]
    · rw [List.length_append, List.length_singleton]
      omega
  exact outside c (start.subset (by simp)) List.mem_cons_self

lemma not_infix_skip (nonempty : pattern ≠ []) (outside : ∀ c ∈ l, c ∉ pattern)
    (right : ¬ pattern <:+: m) : ¬ pattern <:+: l ++ m := by
  intro within
  obtain ⟨p, here⟩ := infix_iff_at.mp within
  exact right (infix_iff_at.mpr ⟨_, here.of_append_right (here.skip nonempty outside)⟩)

lemma At.head {c : α} {rest : List α} (here : At (c :: rest) (l ++ c :: m) p) (once : c ∉ rest) :
    At (c :: rest) l p ∨ l.length ≤ p := by
  by_cases inside : p + (c :: rest).length ≤ l.length
  · exact Or.inl (here.of_append inside)
  refine Or.inr (Nat.le_of_not_lt fun lt => once ?_)
  obtain ⟨before, after, eq, rfl⟩ := at_iff.mp here
  have start : before ++ [c] <+: l := by
    refine List.prefix_of_prefix_length_le ⟨rest ++ after, ?_⟩ (List.prefix_append l (c :: m)) ?_
    · rw [eq, List.append_assoc, List.singleton_append, List.cons_append]
    · rwa [List.length_append]
  obtain ⟨between, rfl⟩ := start
  rw [List.append_assoc, List.append_assoc, List.singleton_append, List.cons_append] at eq
  have tail := (List.cons.inj (List.append_cancel_left eq)).2
  have within : between ++ [c] <+: rest := by
    refine List.prefix_of_prefix_length_le ⟨m, ?_⟩ (List.prefix_append rest after) ?_
    · rw [← tail, List.append_assoc, List.singleton_append]
    · simp only [List.length_append, List.length_cons, List.length_nil] at inside ⊢
      omega
  exact within.subset (by simp)

/-! ## The first place -/

section
variable {P Q : Nat → Prop} {a b : Option Nat}

/-- The first number with a property, if there is one. -/
def Least (P : Nat → Prop) : Option Nat → Prop
  | none => ∀ p, ¬ P p
  | some p => P p ∧ ∀ q < p, ¬ P q

lemma Least.eq_none (least : Least P a) : a = none ↔ ∀ p, ¬ P p := by
  cases a with
  | none => exact iff_of_true rfl least
  | some p => exact iff_of_false nofun fun no => no p least.1

lemma Least.eq_some (least : Least P a) {p : Nat} : a = some p ↔ P p ∧ ∀ q < p, ¬ P q := by
  cases a with
  | none => exact iff_of_false nofun fun here => least p here.1
  | some p' =>
    obtain ⟨here, before⟩ := least
    constructor
    · rintro ⟨⟩
      exact ⟨here, before⟩
    · rintro ⟨here', before'⟩
      have le : p ≤ p' := Nat.le_of_not_lt fun lt => before' p' lt here
      have ge : p' ≤ p := Nat.le_of_not_lt fun lt => before p lt here'
      rw [Nat.le_antisymm ge le]

lemma Least.unique (least : Least P a) (least' : Least P b) : a = b := by
  cases b with
  | none => exact least.eq_none.mpr least'
  | some p => exact least.eq_some.mpr least'

lemma Least.congr (least : Least P a) (same : ∀ p, P p ↔ Q p) : Least Q a := by
  rwa [← funext fun p => propext (same p)]

/-- The smaller one of two results. -/
def minOption : Option Nat → Option Nat → Option Nat
  | some p, some q => if p < q then some p else some q
  | some p, none => some p
  | none, b => b

lemma Least.or (least : Least P a) (least' : Least Q b) :
    Least (fun p => P p ∨ Q p) (minOption a b) := by
  cases a with
  | none =>
    exact least'.congr fun p => ⟨Or.inr, fun either => either.resolve_left (least p)⟩
  | some p =>
    cases b with
    | none => exact least.congr fun p => ⟨Or.inl, fun either => either.resolve_right (least' p)⟩
    | some q =>
      show Least _ (if p < q then some p else some q)
      split_ifs with lt
      · refine ⟨Or.inl least.1, fun r before => not_or.mpr ⟨least.2 r before, ?_⟩⟩
        exact least'.2 r (Nat.lt_trans before lt)
      · refine ⟨Or.inr least'.1, fun r before => not_or.mpr ⟨?_, least'.2 r before⟩⟩
        exact least.2 r (Nat.lt_of_lt_of_le before (Nat.le_of_not_lt lt))

end

variable [DecidableEq α]

/-- The first place of a pattern. -/
def firstAt (pattern : List α) : List α → Option Nat
  | [] => if pattern.isEmpty then some 0 else none
  | c :: rest =>
    if pattern.isPrefixOf (c :: rest) then some 0 else (firstAt pattern rest).map (· + 1)

lemma least_firstAt (pattern l : List α) : Least (At pattern l) (firstAt pattern l) := by
  induction l with
  | nil =>
    cases pattern with
    | nil => exact ⟨at_zero.mpr List.nil_prefix, nofun⟩
    | cons c pattern => exact fun p here => absurd here.length_le (by simp)
  | cons c rest ih =>
    unfold firstAt
    split_ifs with here
    · exact ⟨at_zero.mpr (List.isPrefixOf_iff_prefix.mp here), nofun⟩
    · have other : ¬ At pattern (c :: rest) 0 := fun start =>
        here (List.isPrefixOf_iff_prefix.mpr (at_zero.mp start))
      cases found : firstAt pattern rest with
      | none =>
        rw [found] at ih
        intro p there
        cases p with
        | zero => exact other there
        | succ p => exact ih p (at_succ.mp there)
      | some p =>
        rw [found] at ih
        refine ⟨at_succ.mpr ih.1, fun q before there => ?_⟩
        cases q with
        | zero => exact other there
        | succ q => exact ih.2 q (Nat.lt_of_succ_lt_succ before) (at_succ.mp there)

lemma firstAt_eq_none : firstAt pattern l = none ↔ ∀ p, ¬ At pattern l p :=
  (least_firstAt pattern l).eq_none

lemma firstAt_eq_some : firstAt pattern l = some p ↔ At pattern l p ∧ ∀ q < p, ¬ At pattern l q :=
  (least_firstAt pattern l).eq_some

lemma firstAt_of_prefix (first : firstAt pattern m = some p) (starts : l <+: m) :
    firstAt pattern l = if p + pattern.length ≤ l.length then some p else none := by
  obtain ⟨here, before⟩ := firstAt_eq_some.mp first
  obtain ⟨rest, rfl⟩ := starts
  split_ifs with inside
  · exact firstAt_eq_some.mpr ⟨here.of_append inside, fun q lt there => before q lt (there.append _)⟩
  · refine firstAt_eq_none.mpr fun q there => ?_
    have le : p ≤ q := Nat.le_of_not_lt fun lt => before q lt (there.append _)
    have short := there.length_le
    omega

lemma firstAt_append (first : firstAt pattern l = some p) (starts : l <+: m) :
    firstAt pattern m = some p := by
  obtain ⟨here, before⟩ := firstAt_eq_some.mp first
  obtain ⟨rest, rfl⟩ := starts
  refine firstAt_eq_some.mpr ⟨here.append _, fun q lt there => before q lt (there.of_append ?_)⟩
  have short := here.length_le
  omega

end PocketMoE.Lib
