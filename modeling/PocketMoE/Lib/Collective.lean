import Mathlib.Logic.Function.Basic
import Mathlib.Tactic.Lemma

/-!
# Programs that take part in collectives

Every rank of a group runs a program of its own (`Prog`): it computes, and from time to time it
enters a collective operation with a value and goes on with what comes back. A collective ends when
all ranks have entered it, and gives all of them the same value (`combine`). `Completes` says that
all programs come to their end. They do not when two ranks wait for different operations, when one
has ended and another waits, or when one raises (`Completes.awaits`).
-/

namespace PocketMoE.Lib

variable {Op V R S ι : Type*}

/-- A program of one rank. -/
inductive Prog (Op V R : Type*) where
  | ret (result : R)
  | raise
  | call (op : Op) (value : V) (next : V → Prog Op V R)

namespace Prog

/-- One program after the other. -/
def bind : Prog Op V R → (R → Prog Op V S) → Prog Op V S
  | ret result, f => f result
  | raise, _ => raise
  | call op value next, f => call op value fun back => (next back).bind f

@[simp] lemma ret_bind (result : R) (f : R → Prog Op V S) : (ret result).bind f = f result := rfl

@[simp] lemma raise_bind (f : R → Prog Op V S) : (raise : Prog Op V R).bind f = raise := rfl

@[simp] lemma call_bind (op : Op) (value : V) (next : V → Prog Op V R) (f : R → Prog Op V S) :
    (call op value next).bind f = call op value fun back => (next back).bind f := rfl

/-- What a program does first: it ends (`some none`), enters an operation, or raises (`none`). -/
def awaits : Prog Op V R → Option (Option Op)
  | ret _ => some none
  | raise => none
  | call op _ _ => some (some op)

end Prog

variable (combine : Op → (ι → V) → V)

/-- The programs of all ranks end, with these results. -/
inductive Completes : (ι → Prog Op V R) → (ι → R) → Prop where
  | ret {programs : ι → Prog Op V R} {results : ι → R}
    (ended : ∀ i, programs i = .ret (results i)) : Completes programs results
  | call {programs : ι → Prog Op V R} {results : ι → R} (op : Op) (values : ι → V)
    (next : ι → V → Prog Op V R) (entered : ∀ i, programs i = .call op (values i) (next i))
    (rest : Completes (fun i => next i (combine op values)) results) : Completes programs results

variable {combine} {programs : ι → Prog Op V R} {results : ι → R}

/-- All ranks do the same first. -/
theorem Completes.awaits (completes : Completes combine programs results) (i j : ι) :
    (programs i).awaits ≠ none ∧ (programs i).awaits = (programs j).awaits := by
  cases completes with
  | ret ended =>
    rw [ended i, ended j]
    exact ⟨Option.some_ne_none _, rfl⟩
  | call op values next entered rest =>
    rw [entered i, entered j]
    exact ⟨Option.some_ne_none _, rfl⟩

lemma completes_ret_iff [Nonempty ι] {ends : ι → R} (ended : ∀ i, programs i = .ret (ends i)) :
    Completes combine programs results ↔ results = ends := by
  constructor
  · intro completes
    funext i
    cases completes with
    | ret ended' => exact Prog.ret.inj ((ended' i).symm.trans (ended i))
    | call op values next entered rest => cases (entered i).symm.trans (ended i)
  · rintro rfl
    exact .ret ended

lemma completes_call_iff [Nonempty ι] {op : Op} {values : ι → V} {next : ι → V → Prog Op V R}
    (entered : ∀ i, programs i = .call op (values i) (next i)) :
    Completes combine programs results ↔
      Completes combine (fun i => next i (combine op values)) results := by
  constructor
  · intro completes
    cases completes with
    | ret ended =>
      obtain ⟨i⟩ := ‹Nonempty ι›
      cases (ended i).symm.trans (entered i)
    | call op' values' next' entered' rest =>
      have same : ∀ i, op = op' ∧ values i = values' i ∧ next i = next' i := fun i =>
        Prog.call.inj ((entered i).symm.trans (entered' i))
      obtain ⟨i⟩ := ‹Nonempty ι›
      obtain rfl := (same i).1
      obtain rfl : values = values' := funext fun i => (same i).2.1
      obtain rfl : next = next' := funext fun i => (same i).2.2
      exact rest
  · exact .call op values next entered

lemma completes_once_iff [Nonempty ι] {op : Op} {values : ι → V} {ends : ι → V → R}
    (entered : ∀ i, programs i = .call op (values i) fun back => .ret (ends i back)) :
    Completes combine programs results ↔ results = fun i => ends i (combine op values) := by
  rw [completes_call_iff entered]
  exact completes_ret_iff fun _ => rfl

end PocketMoE.Lib
