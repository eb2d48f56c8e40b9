import Mathlib.Data.List.Basic
import Mathlib.Tactic.Lemma

/-!
# Stacks of stateful stages

A stack is a list of stages, each with a state of its own. A value that enters at a position passes
through all stages in order (`feed`); a stream is fed value by value (`feedAll`). One stage alone
turns a stream into a stream (`stage`).

`feedAll_cons` exchanges the two loops: feeding the values one after the other through the whole
stack is the same as passing the whole stream through the first stage, and then through the rest.
-/

namespace PocketMoE.Lib

variable {L σ α : Type*} (step : L → σ → Nat → α → σ × α)

/-- One value through all stages. -/
def feed : List (L × σ) → Nat → α → List (L × σ) × α
  | [], _, a => ([], a)
  | (l, s) :: rest, p, a =>
    let (s', b) := step l s p a
    let (rest', c) := feed rest p b
    ((l, s') :: rest', c)

/-- A stream through all stages, value by value, from position `p` on. -/
def feedAll : List (L × σ) → Nat → List α → List (L × σ) × List α
  | stack, _, [] => (stack, [])
  | stack, p, a :: as =>
    let (stack', b) := feed step stack p a
    let (stack'', bs) := feedAll stack' (p + 1) as
    (stack'', b :: bs)

/-- A stream through one stage. -/
def stage (l : L) : σ → Nat → List α → σ × List α
  | s, _, [] => (s, [])
  | s, p, a :: as =>
    let (s', b) := step l s p a
    let (s'', bs) := stage l s' (p + 1) as
    (s'', b :: bs)

variable {step} {l : L} {s : σ} {p : Nat} {as bs : List α}

@[simp] lemma stage_nil : stage step l s p [] = (s, []) := rfl

lemma stage_cons (a : α) : stage step l s p (a :: as) =
    ((stage step l (step l s p a).1 (p + 1) as).1,
      (step l s p a).2 :: (stage step l (step l s p a).1 (p + 1) as).2) := rfl

@[simp] lemma feedAll_nil_stack : feedAll step [] p as = ([], as) := by
  induction as generalizing p with
  | nil => rfl
  | cons a as ih => simp [feedAll, feed, ih]

/-- The loop over the stream and the loop over the stages commute. -/
theorem feedAll_cons (rest : List (L × σ)) : feedAll step ((l, s) :: rest) p as =
    ((l, (stage step l s p as).1) :: (feedAll step rest p (stage step l s p as).2).1,
      (feedAll step rest p (stage step l s p as).2).2) := by
  induction as generalizing s rest p with
  | nil => rfl
  | cons a as ih => simp only [feedAll, feed, ih, stage_cons]

lemma feedAll_append (stack : List (L × σ)) : feedAll step stack p (as ++ bs) =
    ((feedAll step (feedAll step stack p as).1 (p + as.length) bs).1,
      (feedAll step stack p as).2 ++
        (feedAll step (feedAll step stack p as).1 (p + as.length) bs).2) := by
  induction as generalizing stack p with
  | nil => simp [feedAll]
  | cons a as ih =>
    have shift : p + (a :: as).length = p + 1 + as.length := by
      rw [List.length_cons]
      omega
    simp only [List.cons_append, feedAll, ih, shift]

@[simp] lemma length_feedAll (stack : List (L × σ)) :
    (feedAll step stack p as).2.length = as.length := by
  induction as generalizing stack p with
  | nil => rfl
  | cons a as ih => simp [feedAll, ih]

@[simp] lemma length_stage : (stage step l s p as).2.length = as.length := by
  induction as generalizing s p with
  | nil => rfl
  | cons a as ih => simp [stage_cons, ih]

lemma stage_append : stage step l s p (as ++ bs) =
    ((stage step l (stage step l s p as).1 (p + as.length) bs).1,
      (stage step l s p as).2 ++ (stage step l (stage step l s p as).1 (p + as.length) bs).2) := by
  induction as generalizing s p with
  | nil => simp
  | cons a as ih =>
    simp only [List.cons_append, stage_cons, ih, List.length_cons, Nat.add_right_comm p 1, Nat.add_assoc]

lemma stage_invariant {P : Nat → σ → Prop} (init : P p s)
    (keeps : ∀ {q s a}, q < p + as.length → P q s → P (q + 1) (step l s q a).1) :
    P (p + as.length) (stage step l s p as).1 := by
  induction as generalizing s p with
  | nil => exact init
  | cons a as ih =>
    rw [stage_cons, List.length_cons, Nat.add_comm as.length, ← Nat.add_assoc]
    refine ih (keeps (by simp) init) fun {q s a} lt => keeps ?_
    rw [List.length_cons]
    omega

lemma feedAll_mem (step : L → σ → Nat → α → σ × α) (p : Nat) (as : List α)
    {stack : List (L × σ)} {slot : L × σ} (member : slot ∈ stack) :
    ∃ bs : List α, bs.length = as.length ∧
      (slot.1, (stage step slot.1 slot.2 p bs).1) ∈ (feedAll step stack p as).1 := by
  induction stack generalizing as with
  | nil => exact absurd member List.not_mem_nil
  | cons first rest ih =>
    rw [feedAll_cons]
    rcases List.mem_cons.mp member with rfl | later
    · exact ⟨as, rfl, List.mem_cons_self⟩
    · obtain ⟨bs, len, found⟩ := ih (stage step first.1 first.2 p as).2 later
      exact ⟨bs, len.trans length_stage, List.mem_cons_of_mem _ found⟩

/-! ## Two stacks side by side -/

/-- Stacks of the same stages, whose states are related at a position. -/
def Related (R : L → Nat → σ → σ → Prop) (p : Nat) (stack stack' : List (L × σ)) : Prop :=
  List.Forall₂ (fun slot slot' => slot.1 = slot'.1 ∧ R slot.1 p slot.2 slot'.2) stack stack'

lemma Related.feed {R : L → Nat → σ → σ → Prop} {stack stack' : List (L × σ)}
    (keeps : ∀ {l s s'} a, R l p s s' →
      R l (p + 1) (step l s p a).1 (step l s' p a).1 ∧ (step l s p a).2 = (step l s' p a).2)
    (related : Related R p stack stack') (a : α) :
    Related R (p + 1) (feed step stack p a).1 (feed step stack' p a).1 ∧
      (feed step stack p a).2 = (feed step stack' p a).2 := by
  induction related generalizing a with
  | nil => exact ⟨.nil, rfl⟩
  | @cons slot slot' rest rest' here _ ih =>
    obtain ⟨l, s⟩ := slot
    obtain ⟨l', s'⟩ := slot'
    obtain ⟨rfl, related⟩ := here
    obtain ⟨next, same⟩ := keeps a related
    obtain ⟨all, last⟩ := ih (step l s p a).2
    simp only [Lib.feed, ← same]
    exact ⟨.cons ⟨rfl, next⟩ all, last⟩

lemma Related.feedAll {R : L → Nat → σ → σ → Prop} {stack stack' : List (L × σ)}
    (keeps : ∀ {l p s s'} a, R l p s s' →
      R l (p + 1) (step l s p a).1 (step l s' p a).1 ∧ (step l s p a).2 = (step l s' p a).2)
    (related : Related R p stack stack') (as : List α) :
    Related R (p + as.length) (feedAll step stack p as).1 (feedAll step stack' p as).1 ∧
      (feedAll step stack p as).2 = (feedAll step stack' p as).2 := by
  induction as generalizing p stack stack' with
  | nil => exact ⟨related, rfl⟩
  | cons a as ih =>
    obtain ⟨next, same⟩ := related.feed (fun a => keeps a) a
    obtain ⟨all, rest⟩ := ih next
    rw [List.length_cons, Nat.add_comm as.length, ← Nat.add_assoc]
    exact ⟨all, congrArg₂ List.cons same rest⟩

lemma Related.eq {R : L → Nat → σ → σ → Prop} {stack stack' : List (L × σ)}
    (related : Related R p stack stack') (same : ∀ {l s s'}, R l p s s' → s = s') :
    stack = stack' := by
  induction related with
  | nil => rfl
  | @cons slot slot' rest rest' here _ ih =>
    rw [Prod.ext here.1 (same here.2), ih]

end PocketMoE.Lib
