import Mathlib.Data.List.Basic
import Mathlib.Tactic.Lemma

/-!
# Reading a stream in blocks

A reader says how long the next block is that it waits for, and goes on when it has it; it waits for
none when it has stopped. What it makes of a stream does not depend on the pieces in which the stream
arrives (`receive_absorb`), and it makes of a beginning a beginning (`absorb_grows`).
-/

namespace PocketMoE.Lib

/-- A reader: the length of the next block, 0 at the end, and what a block does. -/
structure BlockReader (α S : Type*) where
  need : S → ℕ
  next : S → List α → S

namespace BlockReader

variable {α S : Type*} (m : BlockReader α S)

/-- All whole blocks of a stream, and what is left of it. -/
def absorb (s : S) (xs : List α) : S × List α :=
  if _ : m.need s = 0 ∨ xs.length < m.need s then (s, xs)
  else absorb (m.next s (xs.take (m.need s))) (xs.drop (m.need s))
termination_by xs.length
decreasing_by simp only [List.length_drop]; omega

/-- What a piece of the stream does to a reader and the bytes that it holds. -/
def receive (r : S × List α) (piece : List α) : S × List α :=
  let held := r.2 ++ piece
  if held.length = m.need r.1 then (m.next r.1 held, []) else (r.1, held)

variable {m}

lemma absorb_short {s : S} {xs : List α} (short : m.need s = 0 ∨ xs.length < m.need s) :
    m.absorb s xs = (s, xs) := by
  rw [absorb, dif_pos short]

lemma absorb_block {s : S} {block : List α} (pos : 0 < m.need s)
    (size : block.length = m.need s) (xs : List α) :
    m.absorb s (block ++ xs) = m.absorb (m.next s block) xs := by
  have long : ¬ (m.need s = 0 ∨ (block ++ xs).length < m.need s) := by
    rw [List.length_append]
    omega
  rw [absorb, dif_neg long, ← size, List.take_left, List.drop_left]

lemma absorb_nil (s : S) : m.absorb s ([] : List α) = (s, []) :=
  absorb_short ((Nat.eq_zero_or_pos _).imp_right id)

lemma absorb_rest (s : S) (xs : List α) :
    m.need (m.absorb s xs).1 = 0 ∨ (m.absorb s xs).2.length < m.need (m.absorb s xs).1 := by
  induction s, xs using absorb.induct m with
  | case1 s xs short =>
    rw [absorb_short short]
    exact short
  | case2 s xs long ih =>
    rw [absorb, dif_neg long]
    exact ih

lemma absorb_append (s : S) (xs ys : List α) :
    m.absorb s (xs ++ ys) = m.absorb (m.absorb s xs).1 ((m.absorb s xs).2 ++ ys) := by
  induction s, xs using absorb.induct m with
  | case1 s xs short => rw [absorb_short short]
  | case2 s xs long ih =>
    obtain ⟨some, enough⟩ := not_or.mp long
    have size : (xs.take (m.need s)).length = m.need s :=
      List.length_take_of_le (Nat.not_lt.mp enough)
    have pos : 0 < m.need s := Nat.pos_of_ne_zero some
    have first : m.absorb s xs =
        m.absorb (m.next s (xs.take (m.need s))) (xs.drop (m.need s)) := by
      rw [absorb, dif_neg long]
    rw [first, ← ih, ← absorb_block pos size, ← List.append_assoc, List.take_append_drop]

lemma receive_absorb {s : S} {read piece : List α} {r : S × List α} (same : r = m.absorb s read)
    (pos : 0 < m.need r.1) (fits : r.2.length + piece.length ≤ m.need r.1) :
    m.receive r piece = m.absorb s (read ++ piece) := by
  rw [absorb_append, ← same, receive]
  split_ifs with whole
  · rw [← List.append_nil (r.2 ++ piece), absorb_block pos whole, absorb_nil, List.append_nil]
  · refine (absorb_short (Or.inr ?_)).symm
    rw [List.length_append] at whole ⊢
    omega

lemma absorb_grows {R : S → S → Prop} (refl : ∀ s, R s s) (trans : ∀ {a b c}, R a b → R b c → R a c)
    (next : ∀ s block, R s (m.next s block)) (s : S) (xs : List α) : R s (m.absorb s xs).1 := by
  induction s, xs using absorb.induct m with
  | case1 s xs short =>
    rw [absorb_short short]
    exact refl s
  | case2 s xs long ih =>
    rw [absorb, dif_neg long]
    exact trans (next s _) ih

end BlockReader

end PocketMoE.Lib
