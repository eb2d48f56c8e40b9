import Mathlib.Data.List.Forall2
import Mathlib.Tactic.Lemma

/-!
# Steps that may fail

When sequences of steps in `Except` succeed, and where they fail first.
-/

namespace PocketMoE.Lib

variable {ε α β : Type}

lemma bind_ok {x : Except ε α} {f : α → Except ε β} {b : β} :
    x >>= f = .ok b ↔ ∃ a, x = .ok a ∧ f a = .ok b := by
  cases x with
  | error e => exact iff_of_false nofun nofun
  | ok a =>
    constructor
    · exact fun eq => ⟨a, rfl, eq⟩
    · rintro ⟨_, ⟨⟩, eq⟩
      exact eq

lemma pure_ok {a b : α} : (pure a : Except ε α) = .ok b ↔ b = a := by
  show Except.ok a = Except.ok b ↔ _
  rw [Except.ok.injEq, eq_comm]

lemma run_bind_ok {σ : Type} {x : StateT σ (Except ε) α} {f : α → StateT σ (Except ε) β} {s t : σ}
    {b : β} : (x >>= f) s = .ok (b, t) ↔ ∃ a m, x s = .ok (a, m) ∧ f a m = .ok (b, t) := by
  show (x s >>= fun p => f p.1 p.2) = _ ↔ _
  rw [bind_ok, Prod.exists]

lemma run_pure_ok {σ : Type} {a b : α} {s t : σ} :
    (pure a : StateT σ (Except ε) α) s = .ok (b, t) ↔ b = a ∧ t = s := by
  show Except.ok (a, s) = Except.ok (b, t) ↔ _
  rw [Except.ok.injEq, Prod.mk.injEq, eq_comm, @eq_comm _ s]

lemma error_bind {x : Except ε α} {f : α → Except ε β} {e : ε} :
    x >>= f = .error e ↔ x = .error e ∨ ∃ a, x = .ok a ∧ f a = .error e := by
  cases x with
  | error e' =>
    constructor
    · rintro ⟨⟩
      exact Or.inl rfl
    · rintro (⟨⟨⟩⟩ | ⟨a, other, -⟩)
      · rfl
      · cases other
  | ok a =>
    constructor
    · exact fun eq => Or.inr ⟨a, rfl, eq⟩
    · rintro (other | ⟨_, ⟨⟩, eq⟩)
      · cases other
      · exact eq

lemma mapM_ok {f : α → Except ε β} {l : List α} {bs : List β} :
    l.mapM f = .ok bs ↔ List.Forall₂ (fun a b => f a = .ok b) l bs := by
  induction l generalizing bs with
  | nil =>
    rw [List.mapM_nil, pure_ok, List.forall₂_nil_left_iff]
  | cons a l ih =>
    simp only [List.mapM_cons, bind_ok, pure_ok]
    constructor
    · rintro ⟨b, here, bs', rest, rfl⟩
      exact .cons here (ih.mp rest)
    · rintro (_ | ⟨here, rest⟩)
      exact ⟨_, here, _, ih.mpr rest, rfl⟩

lemma mapM_error {f : α → Except ε β} {l : List α} {e : ε} :
    l.mapM f = .error e ↔ ∃ before a after, l = before ++ a :: after ∧
      (∀ b ∈ before, ∃ y, f b = .ok y) ∧ f a = .error e := by
  induction l with
  | nil =>
    refine iff_of_false nofun ?_
    rintro ⟨before, a, after, eq, -⟩
    exact absurd eq.symm (by simp)
  | cons a l ih =>
    simp only [List.mapM_cons, error_bind]
    constructor
    · rintro (here | ⟨b, first, rest | ⟨bs, -, other⟩⟩)
      · exact ⟨[], a, l, rfl, nofun, here⟩
      · obtain ⟨before, a', after, rfl, oks, stop⟩ := ih.mp rest
        exact ⟨a :: before, a', after, rfl, List.forall_mem_cons.mpr ⟨⟨b, first⟩, oks⟩, stop⟩
      · cases other
    · rintro ⟨_ | ⟨b, before⟩, a', after, eq, oks, stop⟩
      · cases eq
        exact Or.inl stop
      · cases eq
        obtain ⟨⟨y, first⟩, oks⟩ := List.forall_mem_cons.mp oks
        exact Or.inr ⟨y, first, Or.inl (ih.mpr ⟨before, a', after, rfl, oks, stop⟩)⟩

lemma forall₂_comp {γ : Type} {P : α → β → Prop} {Q : β → γ → Prop} {as : List α}
    {cs : List γ} : List.Forall₂ (fun a c => ∃ b, P a b ∧ Q b c) as cs ↔
      ∃ bs, List.Forall₂ P as bs ∧ List.Forall₂ Q bs cs := by
  constructor
  · intro all
    induction all with
    | nil => exact ⟨[], .nil, .nil⟩
    | cons here _ ih =>
      obtain ⟨b, first, second⟩ := here
      obtain ⟨bs, firsts, seconds⟩ := ih
      exact ⟨b :: bs, .cons first firsts, .cons second seconds⟩
  · rintro ⟨bs, firsts, seconds⟩
    induction firsts generalizing cs with
    | nil =>
      cases seconds
      exact .nil
    | cons first _ ih =>
      cases seconds with
      | cons second seconds => exact .cons ⟨_, first, second⟩ (ih seconds)

lemma exists_forall₂ {P : α → β → Prop} {l : List α} :
    (∃ bs, List.Forall₂ P l bs) ↔ ∀ a ∈ l, ∃ b, P a b := by
  induction l with
  | nil => exact iff_of_true ⟨[], .nil⟩ nofun
  | cons a l ih =>
    rw [List.forall_mem_cons, ← ih]
    constructor
    · rintro ⟨_, _ | ⟨here, rest⟩⟩
      exact ⟨⟨_, here⟩, _, rest⟩
    · rintro ⟨⟨b, here⟩, bs, rest⟩
      exact ⟨b :: bs, .cons here rest⟩

lemma forall₂_mem {P : α → β → Prop} {l : List α} {bs : List β} (all : List.Forall₂ P l bs) :
    ∀ a ∈ l, ∃ b ∈ bs, P a b := by
  induction all with
  | nil => nofun
  | cons here _ ih =>
    refine List.forall_mem_cons.mpr ⟨⟨_, List.mem_cons_self .., here⟩, fun a mem => ?_⟩
    obtain ⟨b, member, rest⟩ := ih a mem
    exact ⟨b, List.mem_cons_of_mem _ member, rest⟩

end PocketMoE.Lib
