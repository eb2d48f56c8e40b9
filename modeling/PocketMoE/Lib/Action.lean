import Mathlib.Data.List.Basic
import Mathlib.Tactic.Lemma

/-!
# Actions that change a state and may raise

An action of `EStateM` keeps the state it has reached when it raises. `Triple P x Q R` says what
holds after `x` from a state with `P`: `Q` of the value and the state when it returns, `R` of the
exception and the state when it raises. The rules follow the action's syntax.
-/

namespace PocketMoE.Lib

variable {ε σ α β : Type}

/-- From a state with `P` the action returns with `Q` or raises with `R`. -/
def Triple (P : σ → Prop) (x : EStateM ε σ α) (Q : α → σ → Prop) (R : ε → σ → Prop) : Prop :=
  ∀ s, P s → match x.run s with
    | .ok a t => Q a t
    | .error e t => R e t

variable {P P' : σ → Prop} {Q Q' : α → σ → Prop} {R R' : ε → σ → Prop}

namespace Triple

lemma ok {x : EStateM ε σ α} {s t : σ} {a : α} (spec : Triple P x Q R) (start : P s)
    (run : x.run s = .ok a t) : Q a t := by
  have after := spec s start
  rw [run] at after
  exact after

lemma error {x : EStateM ε σ α} {s t : σ} {e : ε} (spec : Triple P x Q R) (start : P s)
    (run : x.run s = .error e t) : R e t := by
  have after := spec s start
  rw [run] at after
  exact after

lemma conseq {x : EStateM ε σ α} (spec : Triple P' x Q' R') (pre : ∀ s, P s → P' s)
    (post : ∀ a s, Q' a s → Q a s) (raised : ∀ e s, R' e s → R e s) : Triple P x Q R := by
  intro s start
  have after := spec s (pre s start)
  revert after
  cases x.run s with
  | ok a t => exact post a t
  | error e t => exact raised e t

lemma given {φ : Prop} {x : EStateM ε σ α} (spec : φ → Triple P x Q R) :
    Triple (fun s => φ ∧ P s) x Q R :=
  fun s start => spec start.1 s start.2

lemma pure {a : α} (post : ∀ s, P s → Q a s) : Triple P (Pure.pure a : EStateM ε σ α) Q R :=
  fun s start => post s start

lemma raise {e : ε} (raised : ∀ s, P s → R e s) : Triple P (throw e : EStateM ε σ α) Q R :=
  fun s start => raised s start

lemma modify {f : σ → σ} {Q : PUnit → σ → Prop} (post : ∀ s, P s → Q ⟨⟩ (f s)) :
    Triple P (modify f : EStateM ε σ PUnit) Q R :=
  fun s start => post s start

lemma bind {x : EStateM ε σ α} {f : α → EStateM ε σ β} {Q' : β → σ → Prop}
    (first : Triple P x Q R) (second : ∀ a, Triple (Q a) (f a) Q' R) :
    Triple P (x >>= f) Q' R := by
  intro s start
  have after := first s start
  change match EStateM.bind x f s with
    | .ok b t => Q' b t
    | .error e t => R e t
  unfold EStateM.bind
  revert after
  change (match x s with
    | .ok a t => Q a t
    | .error e t => R e t) → _
  cases x s with
  | ok a t => exact second a t
  | error e t => exact id

lemma read {f : σ → EStateM ε σ β} {Q' : β → σ → Prop}
    (rest : ∀ s, P s → Triple (fun t => t = s) (f s) Q' R) :
    Triple P (get >>= f) Q' R :=
  fun s start => rest s start s rfl

lemma each {x : EStateM ε σ α} (spec : ∀ s, P s → Triple (fun t => t = s) x Q R) :
    Triple P x Q R :=
  fun s start => spec s start s rfl

lemma ite {c : Prop} [Decidable c] {x y : EStateM ε σ α} (yes : c → Triple P x Q R)
    (no : ¬ c → Triple P y Q R) : Triple P (if c then x else y) Q R := by
  split
  · exact yes ‹_›
  · exact no ‹_›

lemma forM {I : σ → Prop} {f : α → EStateM ε σ PUnit} {l : List α}
    (step : ∀ a ∈ l, Triple I (f a) (fun _ => I) R) :
    Triple I (l.forM f) (fun _ => I) R := by
  induction l with
  | nil => exact pure fun _ start => start
  | cons a l ih =>
    obtain ⟨here, rest⟩ := List.forall_mem_cons.mp step
    exact bind here fun _ => ih rest

lemma forM_prefix {I : List α → σ → Prop} {f : α → EStateM ε σ PUnit} {l : List α}
    (step : ∀ done a rest, l = done ++ a :: rest →
      Triple (I done) (f a) (fun _ => I (done ++ [a])) R) :
    Triple (I []) (l.forM f) (fun _ => I l) R := by
  suffices from_done : ∀ done todo, l = done ++ todo →
      Triple (I done) (todo.forM f) (fun _ => I l) R from from_done [] l rfl
  intro done todo
  induction todo generalizing done with
  | nil =>
    intro eq
    rw [eq, List.append_nil]
    exact pure fun _ start => start
  | cons a todo ih =>
    intro eq
    exact bind (step done a todo eq) fun _ => ih (done ++ [a]) (by rw [eq, List.append_assoc]; rfl)

end Triple

end PocketMoE.Lib
