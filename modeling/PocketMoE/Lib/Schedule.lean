import Mathlib.Algebra.BigOperators.Group.Finset.Basic
import Mathlib.Algebra.Order.BigOperators.Group.Finset
import Mathlib.Algebra.Group.Action.Defs
import Mathlib.Data.Fintype.BigOperators
import Mathlib.Tactic.Lemma

/-!
# Processes under a schedule

Each process has a step of its own on the common state, and the schedule says whose step is next. What
every step keeps holds at all times (`at_invariant`). Where each step that does something takes a measure
down, and some process can do something unless all is done, a fair schedule comes to the end
(`fair_done`).
-/

namespace PocketMoE.Lib

section Schedules

variable {Process State : Type*} (step : Process → State → State)

/-- The state after some steps of a schedule. -/
def stateAt (schedule : Nat → Process) (start : State) : Nat → State
  | 0 => start
  | n + 1 => step (schedule n) (stateAt schedule start n)

/-- Every process has infinitely many steps. -/
def Fair (schedule : Nat → Process) : Prop := ∀ p n, ∃ m, n ≤ m ∧ schedule m = p

variable {step} {start : State} {Inv : State → Prop}

lemma at_invariant (init : Inv start) (kept : ∀ p s, Inv s → Inv (step p s))
    (schedule : Nat → Process) : ∀ n, Inv (stateAt step schedule start n)
  | 0 => init
  | n + 1 => kept _ _ (at_invariant init kept schedule n)

variable {schedule : Nat → Process}

lemma at_stays {n m : Nat} (later : n ≤ m)
    (idle : ∀ i, n ≤ i → i < m → step (schedule i) (stateAt step schedule start i) =
      stateAt step schedule start i) :
    stateAt step schedule start m = stateAt step schedule start n := by
  induction m, later using Nat.le_induction with
  | base => rfl
  | succ m later ih =>
    rw [stateAt, idle m later (Nat.lt_succ_self m)]
    exact ih fun i low high => idle i low (Nat.lt_succ_of_lt high)

lemma fair_moves (fair : Fair schedule) {n : Nat} {p : Process}
    (moves : step p (stateAt step schedule start n) ≠ stateAt step schedule start n) :
    ∃ m, n ≤ m ∧
      step (schedule m) (stateAt step schedule start m) ≠ stateAt step schedule start m := by
  by_contra! idle
  obtain ⟨m, later, turn⟩ := fair p n
  have same := at_stays later fun i low _ => idle i low
  apply moves
  rw [← same, ← turn]
  exact idle m later

theorem fair_done (init : Inv start) (kept : ∀ p s, Inv s → Inv (step p s)) (measure : State → Nat)
    (less : ∀ p s, Inv s → step p s ≠ s → measure (step p s) < measure s) {Done : State → Prop}
    (progress : ∀ s, Inv s → ¬ Done s → ∃ p, step p s ≠ s) (fair : Fair schedule) :
    ∃ n, Done (stateAt step schedule start n) := by
  classical
  have all := at_invariant init kept schedule
  suffices ends : ∀ bound n, measure (stateAt step schedule start n) ≤ bound →
      ∃ m, Done (stateAt step schedule start m) from ends _ 0 (Nat.le_refl _)
  intro bound
  induction bound with
  | zero =>
    intro n low
    by_contra! never
    obtain ⟨p, moves⟩ := progress _ (all n) (never n)
    have down := less p _ (all n) moves
    omega
  | succ bound ih =>
    intro n low
    by_contra! never
    obtain ⟨p, moves⟩ := progress _ (all n) (never n)
    -- the first step after `n` that does something
    obtain ⟨later, here⟩ := Nat.find_spec (fair_moves fair moves)
    have still : stateAt step schedule start (Nat.find (fair_moves fair moves)) =
        stateAt step schedule start n := by
      refine at_stays later fun i low high => ?_
      by_contra other
      exact Nat.find_min (fair_moves fair moves) high ⟨low, other⟩
    have down := less _ _ (all _) here
    have same := congrArg measure still
    obtain ⟨m, done⟩ := ih (Nat.find (fair_moves fair moves) + 1) (by rw [stateAt]; omega)
    exact never m done

/-- A process that is ready gets on with its next step. The other steps get on too, or keep the measure
and leave it ready; then it comes to the end if the processes that are needed have infinitely many
steps. -/
theorem fair_done_of_ready {M : Type} [Preorder M] [WellFoundedLT M] (measure : State → M)
    {Ready : Process → State → Prop} {Needed : Process → Prop} {Done : State → Prop}
    (init : Inv start) (kept : ∀ p s, Inv s → Inv (step p s))
    (less : ∀ p s, Inv s → Ready p s → measure (step p s) < measure s)
    (others : ∀ p s, Inv s → measure (step p s) < measure s ∨
      measure (step p s) = measure s ∧ ∀ q, Ready q s → Ready q (step p s))
    (progress : ∀ s, Inv s → ¬ Done s → ∃ p, Needed p ∧ Ready p s)
    (fair : ∀ p, Needed p → ∀ n, ∃ m, n ≤ m ∧ schedule m = p) :
    ∃ n, Done (stateAt step schedule start n) := by
  have all := at_invariant init kept schedule
  suffices ends : ∀ rest n, measure (stateAt step schedule start n) = rest →
      ∃ m, Done (stateAt step schedule start m) from ends _ 0 rfl
  intro rest
  induction rest using WellFoundedLT.induction with
  | ind rest ih =>
    intro n here
    by_contra! never
    have down (k : Nat) : ¬ measure (stateAt step schedule start k) < rest := fun lt => by
      obtain ⟨m, done⟩ := ih _ lt k rfl
      exact never m done
    obtain ⟨p, needed, ready⟩ := progress _ (all n) (never n)
    have waits (k : Nat) (later : n ≤ k) : measure (stateAt step schedule start k) = rest ∧
        Ready p (stateAt step schedule start k) := by
      induction k, later using Nat.le_induction with
      | base => exact ⟨here, ready⟩
      | succ k _ still =>
        obtain ⟨same, ready⟩ := still
        rcases others (schedule k) _ (all k) with lt | ⟨kept, stays⟩
        · exact absurd (same ▸ lt) (down (k + 1))
        · exact ⟨kept.trans same, stays p ready⟩
    obtain ⟨m, later, turn⟩ := fair p needed n
    obtain ⟨same, ready⟩ := waits m later
    have lt := less p _ (all m) ready
    rw [same, ← turn] at lt
    exact down (m + 1) lt

end Schedules

lemma all_bound {n bound : Nat} {f : Fin n → Nat} (each : ∀ i, f i ≤ bound)
    (total : bound * n ≤ ∑ i, f i) : ∀ i, f i = bound := by
  have all : ∑ i, f i = ∑ _i : Fin n, bound := by
    refine Nat.le_antisymm (Finset.sum_le_sum fun i _ => each i) ?_
    rw [Finset.sum_const, Finset.card_univ, Fintype.card_fin, smul_eq_mul, Nat.mul_comm]
    exact total
  intro i
  exact (Finset.sum_eq_sum_iff_of_le fun i _ => each i).mp all i (Finset.mem_univ i)

lemma some_below {n bound : Nat} {f : Fin n → Nat} (total : ∑ i, f i < bound * n) :
    ∃ i, f i < bound := by
  by_contra! all
  refine absurd total (Nat.not_lt.mpr ?_)
  have least := Finset.card_nsmul_le_sum Finset.univ f bound fun i _ => all i
  rwa [Finset.card_univ, Fintype.card_fin, smul_eq_mul, Nat.mul_comm] at least

lemma sum_le_bound {n bound : Nat} {f : Fin n → Nat} (each : ∀ i, f i ≤ bound) :
    ∑ i, f i ≤ bound * n := by
  have most := Finset.sum_le_card_nsmul Finset.univ f bound fun i _ => each i
  rwa [Finset.card_univ, Fintype.card_fin, smul_eq_mul, Nat.mul_comm] at most

lemma sum_swap {n : Nat} {f g : Fin n → Nat} {i : Fin n} (others : ∀ j, j ≠ i → g j = f j) :
    (∑ j, g j) + f i = (∑ j, f j) + g i := by
  have rest : ∑ j ∈ Finset.univ.erase i, g j = ∑ j ∈ Finset.univ.erase i, f j :=
    Finset.sum_congr rfl fun j member => others j (Finset.ne_of_mem_erase member)
  have split : g i + ∑ j ∈ Finset.univ.erase i, g j = ∑ j, g j :=
    Finset.add_sum_erase Finset.univ g (Finset.mem_univ i)
  have split' : f i + ∑ j ∈ Finset.univ.erase i, f j = ∑ j, f j :=
    Finset.add_sum_erase Finset.univ f (Finset.mem_univ i)
  omega

lemma sum_change {n : Nat} {f g : Fin n → Nat} {i : Fin n} (here : g i = f i + 1)
    (others : ∀ j, j ≠ i → g j = f j) : ∑ j, g j = (∑ j, f j) + 1 := by
  have swap := sum_swap others
  omega

lemma sum_less {n : Nat} {f g : Fin n → Nat} {i : Fin n} (here : g i < f i)
    (others : ∀ j, j ≠ i → g j = f j) : ∑ j, g j < ∑ j, f j := by
  refine Finset.sum_lt_sum (fun j _ => ?_) ⟨i, Finset.mem_univ i, here⟩
  by_cases same : j = i
  · exact same ▸ Nat.le_of_lt here
  · exact Nat.le_of_eq (others j same)

end PocketMoE.Lib
