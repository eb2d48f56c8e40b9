import Mathlib.Data.List.Forall2
import PocketMoE.Lib.Search

/-!
# Blocks one after another

Blocks that are filled up to a multiple of their alignment, one behind the other, and where each of them
starts.
-/

namespace PocketMoE.Lib

variable {α : Type} {a n m : Nat}

/-- The least multiple of `a` that is not below. -/
def roundUp (a n : Nat) : Nat := (n + a - 1) / a * a

lemma dvd_roundUp (a n : Nat) : a ∣ roundUp a n := Nat.dvd_mul_left a _

lemma le_roundUp (pos : 1 ≤ a) (n : Nat) : n ≤ roundUp a n := by
  have parts := Nat.div_add_mod (n + a - 1) a
  have lt := Nat.mod_lt (n + a - 1) pos
  unfold roundUp
  rw [Nat.mul_comm]
  omega

lemma roundUp_add (pos : 1 ≤ a) (dvd : a ∣ m) (n : Nat) : roundUp a (m + n) = m + roundUp a n := by
  obtain ⟨k, rfl⟩ := dvd
  unfold roundUp
  rw [show a * k + n + a - 1 = a * k + (n + a - 1) by omega, Nat.mul_add_div pos, Nat.add_mul,
    Nat.mul_comm k]

/-- A list with what fills it up. -/
def filled (a : Nat) (fill : α) (block : List α) : List α :=
  block ++ List.replicate (roundUp a block.length - block.length) fill

lemma length_filled (pos : 1 ≤ a) (fill : α) (block : List α) :
    (filled a fill block).length = roundUp a block.length := by
  have le := le_roundUp pos block.length
  rw [filled, List.length_append, List.length_replicate]
  omega

/-- Where blocks of these lengths start. -/
def starts (a : Nat) : Nat → List Nat → List Nat
  | _, [] => []
  | place, length :: lengths => place :: starts a (place + roundUp a length) lengths

lemma length_starts (place : Nat) (lengths : List Nat) :
    (starts a place lengths).length = lengths.length := by
  induction lengths generalizing place with
  | nil => rfl
  | cons length lengths ih => rw [starts, List.length_cons, List.length_cons, ih]

lemma at_starts (pos : 1 ≤ a) (fill : α) (before : List α) (blocks : List (List α)) :
    List.Forall₂ (fun block place => At block (before ++ blocks.flatMap (filled a fill)) place) blocks
      (starts a before.length (blocks.map List.length)) := by
  induction blocks generalizing before with
  | nil => exact .nil
  | cons block blocks ih =>
    have next := ih (before ++ filled a fill block)
    rw [List.length_append, length_filled pos, List.append_assoc] at next
    refine .cons ?_ next
    have split : before ++ (block :: blocks).flatMap (filled a fill) = before ++ (block ++
        (List.replicate (roundUp a block.length - block.length) fill ++
          blocks.flatMap (filled a fill))) := by
      rw [List.flatMap_cons, filled, List.append_assoc]
    exact at_iff.mpr ⟨before, _, split, rfl⟩

lemma starts_add (place start : Nat) (lengths : List Nat) :
    starts a (place + start) lengths = (starts a start lengths).map (place + ·) := by
  induction lengths generalizing start with
  | nil => rfl
  | cons length lengths ih => rw [starts, starts, List.map_cons, Nat.add_assoc, ih]

lemma at_starts_zip {β : Type} (pos : 1 ≤ a) (fill : α) (before : List α) (block : β → List α)
    (bs : List β) : ∀ p ∈ bs.zip (starts a 0 (bs.map fun b => (block b).length)),
      At (block p.1) (before ++ (bs.map block).flatMap (filled a fill)) (before.length + p.2) := by
  have all := at_starts pos fill before (bs.map block)
  rw [← Nat.add_zero before.length, starts_add, List.forall₂_map_left_iff,
    List.forall₂_map_right_iff, List.map_map] at all
  intro p member
  exact (List.forall₂_iff_zip.mp all).2 member

lemma dvd_starts {place : Nat} (dvd : a ∣ place) (lengths : List Nat) :
    ∀ start ∈ starts a place lengths, a ∣ start := by
  induction lengths generalizing place with
  | nil => exact nofun
  | cons length lengths ih =>
    refine List.forall_mem_cons.mpr ⟨dvd, ih ?_⟩
    exact Nat.dvd_add dvd (dvd_roundUp a length)

lemma le_starts (place : Nat) (lengths : List Nat) :
    ∀ start ∈ starts a place lengths, place ≤ start := by
  induction lengths generalizing place with
  | nil => exact nofun
  | cons length lengths ih =>
    refine List.forall_mem_cons.mpr ⟨Nat.le_refl place, fun start member => ?_⟩
    exact Nat.le_trans (Nat.le_add_right ..) (ih _ start member)

lemma starts_disjoint {β : Type} (pos : 1 ≤ a) (place : Nat) (length : β → Nat) (bs : List β) :
    (bs.zip (starts a place (bs.map length))).Pairwise fun first later =>
      first.2 + length first.1 ≤ later.2 := by
  induction bs generalizing place with
  | nil => exact .nil
  | cons b bs ih =>
    refine .cons ?_ (ih _)
    rintro ⟨b', start⟩ member
    have inside := le_starts _ _ start (List.of_mem_zip member).2
    have le := le_roundUp pos (length b)
    show place + length b ≤ start
    omega

end PocketMoE.Lib
