import Mathlib.Data.List.Basic
import Mathlib.Tactic.Lemma

/-!
# Runs of a labelled transition system

`Run` lists the steps of a finite run, each with the state it starts from. `Run.invariant` is the
induction every safety proof uses: what the first state has and every step keeps, as long as the
steps meet a condition, holds in all states of the run.

`Uninterrupted` is about logs that several parties write: nobody else's entry stands between two
entries of one party. A log stays so when a party appends that is new, or that wrote last.
-/

namespace PocketMoE.Lib

section Runs

variable {S E : Type*} {Step : S → E → S → Prop}

/-- A finite run: the states and labels of its steps, and the state it ends in. -/
inductive Run (Step : S → E → S → Prop) : S → List (S × E) → S → Prop where
  | nil (s : S) : Run Step s [] s
  | cons {s t u : S} {e : E} {trace : List (S × E)} :
    Step s e t → Run Step t trace u → Run Step s ((s, e) :: trace) u

/-- Every step of the trace meets a condition on the state it starts from and its label. -/
def Meets (C : S → E → Prop) (trace : List (S × E)) : Prop :=
  ∀ x ∈ trace, C x.1 x.2

/-- Every state of a run has a property. -/
def Throughout (P : S → Prop) (trace : List (S × E)) (last : S) : Prop :=
  (∀ x ∈ trace, P x.1) ∧ P last

/-- A property of the first state that every step keeps which meets the condition. -/
theorem Run.invariant {Inv : S → Prop} {C : S → E → Prop} {s u : S} {trace : List (S × E)}
    (run : Run Step s trace u) (init : Inv s)
    (keeps : ∀ {a e b}, Inv a → C a e → Step a e b → Inv b) (meets : Meets C trace) :
    Throughout Inv trace u := by
  induction run with
  | nil s => exact ⟨by simp, init⟩
  | cons st run ih =>
    obtain ⟨here, rest⟩ := List.forall_mem_cons.mp meets
    obtain ⟨all, last⟩ := ih (keeps init here st) rest
    exact ⟨List.forall_mem_cons.mpr ⟨init, all⟩, last⟩

/-- A condition on the steps that the states before and after a step show. -/
theorem Run.meets {P : S → Prop} {C : S → E → Prop} {s u : S} {trace : List (S × E)}
    (run : Run Step s trace u) (shows : ∀ {a e b}, P a → Step a e b → P b → C a e)
    (all : Throughout P trace u) : Meets C trace := by
  induction run with
  | nil s => exact fun x member => absurd member List.not_mem_nil
  | cons st run ih =>
    obtain ⟨states, last⟩ := all
    obtain ⟨here, rest⟩ := List.forall_mem_cons.mp states
    refine List.forall_mem_cons.mpr ⟨?_, ih ⟨rest, last⟩⟩
    cases run with
    | nil => exact shows here st last
    | cons st' run' => exact shows here st (List.forall_mem_cons.mp rest).1

lemma Run.step_of_mem {s u : S} {trace : List (S × E)} (run : Run Step s trace u) :
    ∀ x ∈ trace, ∃ t, Step x.1 x.2 t := by
  induction run with
  | nil s => exact fun x member => absurd member List.not_mem_nil
  | cons st run ih => exact List.forall_mem_cons.mpr ⟨⟨_, st⟩, ih⟩

lemma Run.append {s t u : S} {front back : List (S × E)} (first : Run Step s front t)
    (second : Run Step t back u) : Run Step s (front ++ back) u := by
  induction first with
  | nil s => exact second
  | cons st run ih => exact .cons st (ih second)

lemma Throughout.imp {P Q : S → Prop} {trace : List (S × E)} {u : S}
    (all : Throughout P trace u) (imp : ∀ {s}, P s → Q s) : Throughout Q trace u :=
  ⟨fun x member => imp (all.1 x member), imp all.2⟩

lemma Throughout.and {P Q : S → Prop} {trace : List (S × E)} {u : S}
    (first : Throughout P trace u) (second : Throughout Q trace u) :
    Throughout (fun s => P s ∧ Q s) trace u :=
  ⟨fun x member => ⟨first.1 x member, second.1 x member⟩, first.2, second.2⟩

end Runs

section Logs

variable {ι : Type*} {owners : List ι} {i : ι}

/-- Between two entries of one owner there are entries of that owner only. -/
def Uninterrupted (owners : List ι) : Prop :=
  ∀ i before mid after, owners = before ++ i :: (mid ++ i :: after) → ∀ j ∈ mid, j = i

lemma Uninterrupted.nil : Uninterrupted ([] : List ι) := by
  intro i before mid after eq
  simp at eq

lemma append_singleton_split {before mid after : List ι} {j : ι}
    (eq : owners ++ [i] = before ++ j :: (mid ++ j :: after)) :
    (after = [] ∧ i = j ∧ owners = before ++ j :: mid) ∨
      ∃ rest, after = rest ++ [i] ∧ owners = before ++ j :: (mid ++ j :: rest) := by
  cases List.eq_nil_or_concat' after with
  | inl empty =>
    subst empty
    have eq' : owners ++ [i] = (before ++ j :: mid) ++ [j] := by simpa using eq
    obtain ⟨front, same⟩ := List.append_inj' eq' rfl
    exact Or.inl ⟨rfl, List.head_eq_of_cons_eq same, front⟩
  | inr more =>
    obtain ⟨rest, last, rfl⟩ := more
    have eq' : owners ++ [i] = (before ++ j :: (mid ++ j :: rest)) ++ [last] := by simpa using eq
    obtain ⟨front, same⟩ := List.append_inj' eq' rfl
    obtain rfl := List.head_eq_of_cons_eq same
    exact Or.inr ⟨rest, rfl, front⟩

lemma Uninterrupted.append_new (log : Uninterrupted owners) (new : i ∉ owners) :
    Uninterrupted (owners ++ [i]) := by
  intro j before mid after eq
  rcases append_singleton_split eq with ⟨_, rfl, front⟩ | ⟨rest, _, front⟩
  · exact absurd (by simp [front]) new
  · exact log j before mid rest front

lemma Uninterrupted.append_last (log : Uninterrupted owners) (last : owners.getLast? = some i) :
    Uninterrupted (owners ++ [i]) := by
  intro j before mid after eq
  rcases append_singleton_split eq with ⟨_, rfl, front⟩ | ⟨rest, _, front⟩
  · cases List.eq_nil_or_concat' mid with
    | inl empty =>
      subst empty
      exact fun k member => absurd member List.not_mem_nil
    | inr more =>
      obtain ⟨shorter, final, rfl⟩ := more
      have ends : owners = (before ++ i :: shorter) ++ [final] := by simpa using front
      rw [ends, List.getLast?_concat] at last
      obtain rfl : final = i := Option.some_inj.mp last
      intro k member
      rcases List.mem_append.mp member with old | here
      · exact log final before shorter [] (by simpa using front) k old
      · exact List.mem_singleton.mp here
  · exact log j before mid rest front

end Logs

end PocketMoE.Lib
