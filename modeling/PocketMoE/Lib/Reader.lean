import PocketMoE.Lib.Except
import PocketMoE.Lib.Search

/-!
# Readers and the texts they accept

A reader goes from a place in a list to a value and the place behind it, or stops with an error. `Scans`
says which texts it accepts, as a relation between a text and its value, and which errors it stops
with. The rules follow the ways to build a reader: one reader after another (`Scans.bind`), a test
(`Scans.ite`), a number of rounds (`Scans.many`). `Takes` is the half of it that holds also of a reader
that accepts more.
-/

namespace PocketMoE.Lib

/-- A reader. -/
abbrev Read (ε α : Type) := StateT Nat (Except ε) α

variable {σ ε α β : Type}

/-- A text of one kind and then one of a kind that its value decides. -/
def Then (P : List σ → α → Prop) (Q : α → List σ → β → Prop) (l : List σ) (b : β) : Prop :=
  ∃ l₁ a l₂, l = l₁ ++ l₂ ∧ P l₁ a ∧ Q a l₂ b

/-- A number of texts of a kind. -/
def Many (P : List σ → α → Prop) : Nat → List σ → List α → Prop
  | 0 => fun l as => l = [] ∧ as = []
  | n + 1 => Then P fun a => Then (Many P n) fun rest l as => l = [] ∧ as = a :: rest

/-- A number of rounds of a reader. -/
def readMany (r : Read ε α) : Nat → Read ε (List α)
  | 0 => pure []
  | n + 1 => do
    let a ← r
    let rest ← readMany r n
    return a :: rest

/-- A reader accepts the texts of a kind where they stand, and stops with errors of a kind. -/
structure Scans (s : List σ) (E : ε → Prop) (r : Read ε α) (P : List σ → α → Prop) : Prop where
  ok : ∀ {i a j}, i ≤ s.length → (r i = .ok (a, j) ↔ ∃ l, P l a ∧ At l s i ∧ j = i + l.length)
  error : ∀ {i e}, i ≤ s.length → r i = .error e → E e

/-- A reader accepts the texts of a kind where they stand. -/
def Takes (s : List σ) (r : Read ε α) (P : List σ → α → Prop) : Prop :=
  ∀ ⦃i a l⦄, P l a → At l s i → r i = .ok (a, i + l.length)

variable {s : List σ} {E : ε → Prop} {r : Read ε α} {k : α → Read ε β} {P P' : List σ → α → Prop}
  {Q : α → List σ → β → Prop}

lemma at_nil {i : Nat} : At [] s i ↔ i ≤ s.length := and_iff_left (List.nil_prefix)

lemma at_parts {l₁ l₂ : List σ} {i : Nat} :
    At (l₁ ++ l₂) s i ↔ At l₁ s i ∧ At l₂ s (i + l₁.length) := by
  constructor
  · intro whole
    refine ⟨?_, ?_⟩
    · have parts : At ([] ++ (l₁ ++ l₂)) s i := whole
      exact At.inner parts
    · have parts : At (l₁ ++ (l₂ ++ [])) s i := by rwa [List.append_nil]
      exact At.inner parts
  · rintro ⟨first, second⟩
    obtain ⟨before, after, rfl, rfl⟩ := at_iff.mp first
    obtain ⟨before', after', split, length⟩ := at_iff.mp second
    rw [← List.append_assoc] at split
    obtain ⟨rfl, rfl⟩ := List.append_inj split (by rw [List.length_append, length])
    exact at_iff.mpr ⟨before, after', by simp only [List.append_assoc], rfl⟩

namespace Scans

lemma pure (a : α) : Scans s E (pure a) fun l b => l = [] ∧ b = a where
  ok := by
    intro i b j le
    constructor
    · intro eq
      cases eq
      exact ⟨[], ⟨rfl, rfl⟩, at_nil.mpr le, rfl⟩
    · rintro ⟨l, ⟨rfl, rfl⟩, -, rfl⟩
      rfl
  error := nofun

lemma throw {e : ε} (fits : E e) : Scans (α := α) s E (throw e) fun _ _ => False where
  ok := fun _ => ⟨nofun, fun ⟨_, stop, _⟩ => stop.elim⟩
  error := by
    intro i e' _ eq
    cases eq
    exact fits

lemma bind (first : Scans s E r P) (rest : ∀ {l a}, P l a → Scans s E (k a) (Q a)) :
    Scans s E (r >>= k) (Then P Q) where
  ok := by
    intro i b j le
    constructor
    · intro eq
      cases here : r i with
      | error e =>
        have stop : (r >>= k) i = .error e := by
          show (r i >>= fun p => k p.1 p.2) = _
          rw [here]
          rfl
        rw [stop] at eq
        cases eq
      | ok p =>
        have next : (r >>= k) i = k p.1 p.2 := by
          show (r i >>= fun p => k p.1 p.2) = _
          rw [here]
          rfl
        rw [next] at eq
        obtain ⟨l₁, fits, at₁, second⟩ := (first.ok le).mp here
        have le' : p.2 ≤ s.length := second ▸ at₁.length_le
        obtain ⟨l₂, fits₂, at₂, rfl⟩ := ((rest fits).ok le').mp eq
        rw [second] at at₂ ⊢
        exact ⟨l₁ ++ l₂, ⟨l₁, p.1, l₂, rfl, fits, fits₂⟩, at_parts.mpr ⟨at₁, at₂⟩, by
          rw [List.length_append, Nat.add_assoc]⟩
    · rintro ⟨-, ⟨l₁, a, l₂, rfl, fits, fits₂⟩, whole, rfl⟩
      obtain ⟨at₁, at₂⟩ := at_parts.mp whole
      show (r i >>= fun p => k p.1 p.2) = _
      rw [(first.ok le).mpr ⟨l₁, fits, at₁, rfl⟩]
      show k a (i + l₁.length) = _
      rw [List.length_append, ← Nat.add_assoc]
      exact ((rest fits).ok at₁.length_le).mpr ⟨l₂, fits₂, at₂, rfl⟩
  error := by
    intro i e le eq
    cases here : r i with
    | error e' =>
      have stop : (r >>= k) i = .error e' := by
        show (r i >>= fun p => k p.1 p.2) = _
        rw [here]
        rfl
      rw [stop] at eq
      cases eq
      exact first.error le here
    | ok p =>
      have next : (r >>= k) i = k p.1 p.2 := by
        show (r i >>= fun p => k p.1 p.2) = _
        rw [here]
        rfl
      rw [next] at eq
      obtain ⟨l₁, fits, at₁, second⟩ := (first.ok le).mp here
      exact (rest fits).error (second ▸ at₁.length_le) eq

lemma congr (scans : Scans s E r P) (same : ∀ l a, P l a ↔ P' l a) : Scans s E r P' where
  ok := by
    intro i a j le
    rw [scans.ok le]
    exact exists_congr fun l => and_congr_left fun _ => same l a
  error := scans.error

lemma ite {c : Prop} [Decidable c] {r' : Read ε α} (yes : c → Scans s E r P)
    (no : ¬ c → Scans s E r' P') :
    Scans s E (if c then r else r') fun l a => if c then P l a else P' l a := by
  split_ifs with test
  · exact yes test
  · exact no test

lemma many (round : Scans s E r P) (n : Nat) : Scans s E (readMany r n) (Many P n) := by
  induction n with
  | zero => exact Scans.pure []
  | succ n ih => exact round.bind fun _ => ih.bind fun _ => Scans.pure _

lemma takes (scans : Scans s E r P) : Takes s r P :=
  fun _ _ _ fits here => (scans.ok here.1).mpr ⟨_, fits, here, rfl⟩

end Scans

namespace Takes

lemma pure (a : α) : Takes (ε := ε) s (pure a) fun l b => l = [] ∧ b = a := by
  rintro i b l ⟨rfl, rfl⟩ _
  rfl

lemma bind (first : Takes s r P) (rest : ∀ {l a}, P l a → Takes s (k a) (Q a)) :
    Takes s (r >>= k) (Then P Q) := by
  rintro i b - ⟨l₁, a, l₂, rfl, fits, fits₂⟩ whole
  obtain ⟨at₁, at₂⟩ := at_parts.mp whole
  show (r i >>= fun p => k p.1 p.2) = _
  rw [first fits at₁, List.length_append, ← Nat.add_assoc]
  exact rest fits fits₂ at₂

lemma of_imp (takes : Takes s r P) (imp : ∀ l a, P' l a → P l a) : Takes s r P' :=
  fun _ _ _ fits here => takes (imp _ _ fits) here

lemma many (round : Takes s r P) (n : Nat) : Takes s (readMany r n) (Many P n) := by
  induction n with
  | zero => exact Takes.pure []
  | succ n ih => exact round.bind fun _ => ih.bind fun _ => Takes.pure _

end Takes

lemma many_iff {γ : Type} {W : γ → Prop} {f : γ → List σ} {G : γ → α → Prop}
    (shape : ∀ l a, P l a ↔ ∃ c, W c ∧ l = f c ∧ G c a) {n : Nat} {l : List σ} {as : List α} :
    Many P n l as ↔ ∃ cs : List γ, cs.length = n ∧ (∀ c ∈ cs, W c) ∧ l = cs.flatMap f ∧
      List.Forall₂ G cs as := by
  induction n generalizing l as with
  | zero =>
    constructor
    · rintro ⟨rfl, rfl⟩
      exact ⟨[], rfl, nofun, rfl, .nil⟩
    · rintro ⟨cs, length, -, rfl, reads⟩
      cases List.length_eq_zero_iff.mp length
      cases reads
      exact ⟨rfl, rfl⟩
  | succ n ih =>
    constructor
    · rintro ⟨l₁, a, -, rfl, fits, l₂, as', -, rfl, fits₂, rfl, rfl⟩
      obtain ⟨c, wf, rfl, read⟩ := (shape l₁ a).mp fits
      obtain ⟨cs, rfl, all, rfl, reads⟩ := ih.mp fits₂
      refine ⟨c :: cs, rfl, List.forall_mem_cons.mpr ⟨wf, all⟩, ?_, .cons read reads⟩
      rw [List.append_nil, List.flatMap_cons]
    · rintro ⟨cs, length, all, rfl, reads⟩
      cases reads with
      | nil => cases length
      | @cons c a cs as read reads =>
        obtain ⟨wf, all⟩ := List.forall_mem_cons.mp all
        refine ⟨f c, a, cs.flatMap f, rfl, (shape _ _).mpr ⟨c, wf, rfl, read⟩, cs.flatMap f, as, [],
          (List.append_nil _).symm, ?_, rfl, rfl⟩
        exact ih.mpr ⟨cs, Nat.succ.inj length, all, rfl, reads⟩

lemma forall₂_map {γ : Type} {g : γ → α} {cs : List γ} {as : List α} :
    List.Forall₂ (fun c a => a = g c) cs as ↔ as = cs.map g := by
  constructor
  · intro all
    induction all with
    | nil => rfl
    | cons here _ ih => rw [here, ih, List.map_cons]
  · rintro rfl
    exact List.forall₂_map_right_iff.mpr (List.forall₂_same.mpr fun _ _ => rfl)

lemma many_self {W : α → Prop} {f : α → List σ} {n : Nat} {l : List σ} {as : List α} :
    Many (fun l a => W a ∧ l = f a) n l as ↔
      as.length = n ∧ (∀ a ∈ as, W a) ∧ l = as.flatMap f := by
  have shape : ∀ l a, (W a ∧ l = f a) ↔ ∃ c, W c ∧ l = f c ∧ a = id c := by
    intro l a
    constructor
    · rintro ⟨fits, eq⟩
      exact ⟨a, fits, eq, rfl⟩
    · rintro ⟨_, fits, eq, rfl⟩
      exact ⟨fits, eq⟩
  rw [many_iff (G := fun c a => a = id c) shape]
  constructor
  · rintro ⟨cs, length, all, eq, reads⟩
    obtain rfl := forall₂_map.mp reads
    rw [List.map_id]
    exact ⟨length, all, eq⟩
  · rintro ⟨length, all, eq⟩
    exact ⟨as, length, all, eq, forall₂_map.mpr (List.map_id _).symm⟩

lemma at_iff_take {l : List σ} {i : Nat} :
    At l s i ↔ i + l.length ≤ s.length ∧ (s.drop i).take l.length = l := by
  constructor
  · intro here
    exact ⟨here.length_le, (List.prefix_iff_eq_take.mp here.2).symm⟩
  · rintro ⟨inside, eq⟩
    exact ⟨by omega, List.prefix_iff_eq_take.mpr eq.symm⟩

lemma Scans.of_take {n : Nat} {f : List σ → α}
    (inside : ∀ i, i + n ≤ s.length → r i = .ok (f ((s.drop i).take n), i + n))
    (outside : ∀ i ≤ s.length, s.length < i + n → ∃ e, r i = .error e ∧ E e) :
    Scans s E r fun l a => l.length = n ∧ a = f l where
  ok := by
    intro i a j le
    by_cases fits : i + n ≤ s.length
    · rw [inside i fits]
      have length : ((s.drop i).take n).length = n := by
        rw [List.length_take, List.length_drop]
        omega
      constructor
      · intro eq
        cases eq
        exact ⟨_, ⟨length, rfl⟩, at_iff_take.mpr ⟨by rwa [length], by rw [length]⟩, by rw [length]⟩
      · rintro ⟨l, ⟨rfl, rfl⟩, here, rfl⟩
        rw [(at_iff_take.mp here).2]
    · obtain ⟨e, stop, -⟩ := outside i le (Nat.lt_of_not_le fits)
      rw [stop]
      refine ⟨nofun, ?_⟩
      rintro ⟨l, ⟨rfl, rfl⟩, here, rfl⟩
      exact absurd here.length_le fits
  error := by
    intro i e le eq
    by_cases fits : i + n ≤ s.length
    · rw [inside i fits] at eq
      cases eq
    · obtain ⟨e', stop, expected⟩ := outside i le (Nat.lt_of_not_le fits)
      rw [stop] at eq
      cases eq
      exact expected

lemma Scans.lift {x : Except ε α} (expected : ∀ e, x = .error e → E e) :
    Scans s E (liftM x) fun l a => l = [] ∧ x = .ok a := by
  cases x with
  | error e =>
    refine ⟨fun _ => ⟨nofun, fun ⟨_, ⟨_, stop⟩, _⟩ => nomatch stop⟩, ?_⟩
    intro i e' _ eq
    cases eq
    exact expected e rfl
  | ok a =>
    refine (Scans.pure a).congr fun l b => and_congr_right fun _ => ?_
    rw [Except.ok.injEq, eq_comm]

/-! ## Two readers over one text -/

/-- What a reader accepts from a place with a property, another one accepts up to the same place, and it
has the property as well. -/
def Follows {α β : Type} (P : Nat → Prop) (r : Read ε α) (r' : Read ε β) (R : α → β → Prop) : Prop :=
  ∀ ⦃i a j⦄, P i → r i = .ok (a, j) → P j ∧ ∃ b, r' i = .ok (b, j) ∧ R a b

lemma read_bind {k : α → Read ε β} {i j : Nat} {a : α} (read : r i = .ok (a, j)) :
    (r >>= k) i = k a j := by
  show (r i >>= fun p => k p.1 p.2) = _
  rw [read]
  rfl

namespace Follows

variable {γ δ : Type} {I : Nat → Prop} {r' : Read ε β} {R : α → β → Prop} {S : γ → δ → Prop}
  {k : α → Read ε γ} {k' : β → Read ε δ}

lemma pure {a : α} {b : β} (same : R a b) : Follows (ε := ε) I (pure a) (pure b) R := by
  rintro i a' j here eq
  cases eq
  exact ⟨here, b, rfl, same⟩

lemma throw {e : ε} : Follows I (throw e) r' R := nofun

lemma refl (r : Read ε α) : Follows (fun _ => True) r r Eq :=
  fun _ a _ _ eq => ⟨trivial, a, eq, rfl⟩

lemma bind (first : Follows I r r' R) (rest : ∀ a b, R a b → Follows I (k a) (k' b) S) :
    Follows I (r >>= k) (r' >>= k') S := by
  intro i c j place eq
  obtain ⟨a, m, here, there⟩ := run_bind_ok.mp eq
  obtain ⟨place', b, here', same⟩ := first place here
  obtain ⟨place'', d, there', same'⟩ := rest a b same place' there
  exact ⟨place'', d, run_bind_ok.mpr ⟨b, m, here', there'⟩, same'⟩

lemma same {r : Read ε α} {k : α → Read ε γ} {k' : α → Read ε δ} (first : Follows I r r Eq)
    (rest : ∀ a, Follows I (k a) (k' a) S) : Follows I (r >>= k) (r >>= k') S := by
  apply first.bind
  rintro a b rfl
  exact rest a

lemma map {f : α → γ} (follows : Follows I r r' fun _ _ => True) :
    Follows I (do let a ← r; return f a) r' fun _ _ => True := by
  intro i c j place eq
  obtain ⟨a, m, here, last⟩ := run_bind_ok.mp eq
  cases last
  exact follows place here

lemma forget (follows : Follows I r r' fun _ _ => True) :
    Follows I r (do let _ ← r'; return ()) fun _ _ => True := by
  intro i a j place eq
  obtain ⟨place', b, here, -⟩ := follows place eq
  exact ⟨place', (), run_bind_ok.mpr ⟨b, j, here, rfl⟩, trivial⟩

lemma many (round : Follows I r r' R) (n : Nat) :
    Follows I (readMany r n) (readMany r' n) fun _ _ => True := by
  induction n with
  | zero => exact .pure trivial
  | succ n ih => exact round.bind fun _ _ _ => ih.bind fun _ _ _ => .pure trivial

end Follows

/-- What a reader accepts and ends before a place, another one accepts up to the same place; the reader
does not go back. -/
def FollowsBefore {α β : Type} (stop : Nat) (r : Read ε α) (r' : Read ε β) (R : α → β → Prop) : Prop :=
  ∀ ⦃i a j⦄, r i = .ok (a, j) → i ≤ j ∧ (j < stop → ∃ b, r' i = .ok (b, j) ∧ R a b)

namespace FollowsBefore

variable {γ δ : Type} {stop : Nat} {r' : Read ε β} {R : α → β → Prop} {S : γ → δ → Prop}
  {k : α → Read ε γ} {k' : β → Read ε δ}

lemma pure {a : α} {b : β} (same : R a b) : FollowsBefore (ε := ε) stop (pure a) (pure b) R := by
  rintro i a' j eq
  cases eq
  exact ⟨Nat.le_refl i, fun _ => ⟨b, rfl, same⟩⟩

lemma throw {e : ε} : FollowsBefore stop (throw e) r' R := nofun

lemma bind (first : FollowsBefore stop r r' R)
    (rest : ∀ a b, R a b → FollowsBefore stop (k a) (k' b) S) (onward : ∀ a, ∃ b, R a b) :
    FollowsBefore stop (r >>= k) (r' >>= k') S := by
  intro i c j eq
  obtain ⟨a, m, here, there⟩ := run_bind_ok.mp eq
  obtain ⟨le, before⟩ := first here
  obtain ⟨b, same⟩ := onward a
  obtain ⟨le', -⟩ := rest a b same there
  refine ⟨Nat.le_trans le le', fun inside => ?_⟩
  -- the first part ends before the place, for the second one does not go back
  obtain ⟨b, here', same⟩ := before (Nat.lt_of_le_of_lt le' inside)
  obtain ⟨d, there', same'⟩ := (rest a b same there).2 inside
  exact ⟨d, run_bind_ok.mpr ⟨b, m, here', there'⟩, same'⟩

lemma many (round : FollowsBefore stop r r' R) (onward : ∀ a, ∃ b, R a b) (n : Nat) :
    FollowsBefore stop (readMany r n) (readMany r' n) fun _ _ => True := by
  induction n with
  | zero => exact .pure trivial
  | succ n ih =>
    refine round.bind (fun _ _ _ => ih.bind (fun _ _ _ => .pure trivial) fun _ => ?_) onward
    exact ⟨[], trivial⟩

lemma many_eq {r' : Read ε α} (round : FollowsBefore stop r r' Eq) (n : Nat) :
    FollowsBefore stop (readMany r n) (readMany r' n) Eq := by
  induction n with
  | zero => exact .pure rfl
  | succ n ih =>
    refine round.bind ?_ fun a => ⟨a, rfl⟩
    rintro a _ rfl
    refine ih.bind ?_ fun rest => ⟨rest, rfl⟩
    rintro rest _ rfl
    exact .pure rfl

end FollowsBefore

lemma readMany_length {n i j : Nat} {as : List α} (read : readMany r n i = .ok (as, j)) :
    as.length = n := by
  induction n generalizing i j as with
  | zero =>
    obtain ⟨rfl, -⟩ := run_pure_ok.mp read
    rfl
  | succ n ih =>
    obtain ⟨a, m, -, read⟩ := run_bind_ok.mp read
    obtain ⟨rest, m', others, read⟩ := run_bind_ok.mp read
    obtain ⟨rfl, -⟩ := run_pure_ok.mp read
    rw [List.length_cons, ih others]

end PocketMoE.Lib
